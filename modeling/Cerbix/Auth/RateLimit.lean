import Cerbix.Lib.Text

/-!
# The key of the login limiter

`clientIP` (`internal/auth/ratelimit.go`) names the caller that attempts are counted for. With
trusted networks it walks the `X-Forwarded-For` list from the right to the first address that is not
a proxy's; but it reads the first line of the header only, so the walk sees the proxies' addresses
exactly if the client sent no line of its own (`clientIP_unforgeable_iff`, `forged_keys`).
-/

namespace Cerbix.Auth

open Cerbix.Lib List

/-- `forwardedFor` are the values of the `X-Forwarded-For` lines, in order of appearance. -/
structure Request where
  remoteAddr : String
  forwardedFor : List String
  deriving DecidableEq, Repr

/-- The addresses of one line. -/
def addresses (xff : String) : List String :=
  ((Text.split ',' xff).map Text.trimSpace).filter (· ≠ "")

/-- `forwardChain`; `Header.Get` is the first line, and an empty one has no addresses. -/
def forwardChain (r : Request) (peer : String) : List String :=
  addresses (r.forwardedFor.head?.getD "") ++ [peer]

section

variable {ι : Type} (parseIP : String → Option ι) (splitHostPort : String → Option String)

/-- A network is what it contains. -/
def ipInAny (ip : String) (nets : List (ι → Bool)) : Bool :=
  match parseIP ip with
  | none => false
  | some parsed => nets.any fun n => n parsed

/-- Behind trusted networks, the first address from the right that is not trusted. -/
def clientIPByCIDR (r : Request) (peer : String) (trustedNets : List (ι → Bool)) : String :=
  if !ipInAny parseIP peer trustedNets then peer
  else
    let chain := forwardChain r peer
    (chain.reverse.find? fun ip => !ipInAny parseIP ip trustedNets).getD (chain.head?.getD "")

def directPeer (r : Request) : String := (splitHostPort r.remoteAddr).getD r.remoteAddr

/-- The address that the limiter counts by. -/
def clientIP (r : Request) (trustedProxies : Int) (trustedNets : List (ι → Bool)) : String :=
  let peer := directPeer splitHostPort r
  if 0 < trustedNets.length then clientIPByCIDR parseIP r peer trustedNets
  else if trustedProxies ≤ 0 then peer
  else
    let chain := forwardChain r peer
    -- the index is clamped to the leftmost entry, as the subtraction is
    chain.getD (chain.length - 1 - trustedProxies.toNat) ""

end

section

variable {ι : Type} {parseIP : String → Option ι} {splitHostPort : String → Option String}
variable {r : Request} {nets : List (ι → Bool)} {peer addr : String} {left hops : List String}

theorem clientIPByCIDR_of_untrusted (h : ipInAny parseIP peer nets = false) :
    clientIPByCIDR parseIP r peer nets = peer := by
  simp [clientIPByCIDR, h]

/-- The walk over the first line stops at the last address that is not trusted. -/
theorem clientIPByCIDR_of_first (hpeer : ipInAny parseIP peer nets = true)
    (hfirst : addresses (r.forwardedFor.head?.getD "") = left ++ addr :: hops)
    (haddr : ipInAny parseIP addr nets = false)
      (hhops : ∀ a ∈ hops, ipInAny parseIP a nets = true) :
    clientIPByCIDR parseIP r peer nets = addr := by
  have hskip : hops.reverse.find? (fun ip => !ipInAny parseIP ip nets) = none := by
    rw [find?_eq_none]
    intro a ha
    simp [hhops a (mem_reverse.1 ha)]
  have hwalk : (forwardChain r peer).reverse.find? (fun ip => !ipInAny parseIP ip nets) =
      some addr := by
    simp [forwardChain, hfirst, hpeer, hskip, haddr, find?_append]
  simp [clientIPByCIDR, hpeer, hwalk]

theorem addresses_empty : addresses "" = [] := by decide +kernel

/-- A first line without addresses leaves the proxy itself. -/
theorem clientIPByCIDR_of_empty (hfirst : addresses (r.forwardedFor.head?.getD "") = []) :
    clientIPByCIDR parseIP r peer nets = peer := by
  cases hpeer : ipInAny parseIP peer nets with
  | false => exact clientIPByCIDR_of_untrusted hpeer
  | true => simp [clientIPByCIDR, forwardChain, hfirst, hpeer]

/-- **When the key cannot be forged.** The header of an untrusted peer has no influence. Of a
trusted one, where `addr` is the first address from the right that is not trusted, the key is `addr`
whatever stands to its left exactly if no line of the header comes before that of `addr`. -/
theorem clientIP_unforgeable_iff (hnets : nets ≠ []) (trustedProxies : Int) :
    (∀ r, ipInAny parseIP (directPeer splitHostPort r) nets = false →
      clientIP parseIP splitHostPort r trustedProxies nets = directPeer splitHostPort r) ∧
    ∀ remoteAddr addr hops after line left n,
      ipInAny parseIP (directPeer splitHostPort ⟨remoteAddr, []⟩) nets = true →
      ipInAny parseIP addr nets = false →
      (∀ a ∈ hops ++ after.flatMap addresses, ipInAny parseIP a nets = true) →
      addresses line = left ++ addr :: hops →
      ((∀ before line' left', before.length = n → addresses line' = left' ++ addr :: hops →
        clientIP parseIP splitHostPort ⟨remoteAddr, before ++ line' :: after⟩ trustedProxies nets =
          addr) ↔ n = 0) := by
  have hkey (r : Request) : clientIP parseIP splitHostPort r trustedProxies nets =
      clientIPByCIDR parseIP r (directPeer splitHostPort r) nets :=
    if_pos (length_pos_iff.2 hnets)
  refine ⟨fun r hpeer => (hkey r).trans (clientIPByCIDR_of_untrusted hpeer), ?_⟩
  intro remoteAddr addr hops after line left n hpeer haddr hhops hline
  constructor
  · intro h
    by_contra hn
    obtain ⟨m, rfl⟩ := Nat.exists_eq_succ_of_ne_zero hn
    -- the client's own lines have no address, so the proxy is the key
    have hown := (hkey _).symm.trans (h (replicate (m + 1) "") line left length_replicate hline)
    have hproxy := hown.symm.trans (clientIPByCIDR_of_empty addresses_empty)
    rw [hproxy] at haddr
    exact absurd (haddr.symm.trans hpeer) Bool.false_ne_true
  · rintro rfl before line' left' hbefore hline'
    cases length_eq_zero_iff.1 hbefore
    rw [hkey]
    exact clientIPByCIDR_of_first hpeer hline' haddr fun a ha => hhops a (mem_append_left _ ha)

end

/-- A proxy of the network `10.` with a line that the client sent before the one of the proxy. -/
def forgedRequest (line : String) : Request := ⟨"10.0.0.1:443", [line, "198.51.100.2"]⟩

def hostOf (addr : String) : Option String := (Text.split ':' addr).head?

theorem clientIP_unforgeable_one_line :
    clientIP some hostOf ⟨"10.0.0.1:443", ["203.0.113.7, 198.51.100.2", "10.0.0.2"]⟩ 0
      [fun ip => Text.hasPrefix ip "10."] = "198.51.100.2" :=
  ((clientIP_unforgeable_iff (by simp) 0).2 "10.0.0.1:443" "198.51.100.2" [] ["10.0.0.2"]
    "203.0.113.7, 198.51.100.2" ["203.0.113.7"] 0 (by decide +kernel) (by decide +kernel)
    (by decide +kernel) (by decide +kernel)).2 rfl []
    "203.0.113.7, 198.51.100.2" ["203.0.113.7"] rfl (by decide +kernel)

/-- **The client names its own key**: the line that it sends is the only one that is read. -/
theorem forged_keys :
    clientIP some hostOf (forgedRequest "203.0.113.7") 0 [fun ip => Text.hasPrefix ip "10."] =
        "203.0.113.7" ∧
      clientIP some hostOf (forgedRequest "203.0.113.8") 0 [fun ip => Text.hasPrefix ip "10."] =
        "203.0.113.8" := by
  decide +kernel

end Cerbix.Auth
