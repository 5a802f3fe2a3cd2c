import Cerbix.Lib.Text
import Mathlib.Data.List.Infix

/-!
# Placeholders

A placeholder is a name between double braces, and a rule writes its value for it. Where names and
values have no braces, no value is empty, and no brace opens inside two opened ones (`flat`), the
rules may be applied in turn or all at once: the text is the same (`foldl_substitute`), in every
order of the rules (`substitute_perm`).
-/

namespace Cerbix.Lib.Text

open List

/-- The placeholder of a name. -/
def braced (name : List Char) : List Char := '{' :: '{' :: (name ++ ['}', '}'])

/-- The name in a placeholder, and what is written for it. -/
structure Rule where
  name : List Char
  value : List Char

/-- The first rule whose placeholder begins the text: how many characters after the first it takes,
and its value. -/
def substRule (rules : List Rule) (xs : List Char) : Option (Nat × List Char) :=
  (rules.find? fun r => (braced r.name).isPrefixOf xs).map fun r =>
    ((braced r.name).length - 1, r.value)

/-- Replace every placeholder at once, from left to right. -/
def substitute (rules : List Rule) (xs : List Char) : List Char :=
  rewrite (fun c => [c]) (substRule rules) 0 xs

/-- No brace opens before one closes. -/
def opened : List Char → Bool
  | [] => true
  | c :: cs => c = '}' || (c ≠ '{' && opened cs)

/-- After two opened braces one closes before the next opens. -/
def flat : List Char → Bool
  | [] => true
  | c :: cs => (!isPrefixOf ['{', '{'] (c :: cs) || opened cs.tail) && flat cs

/-- The text has no brace. -/
def plain (xs : List Char) : Bool := !xs.contains '{' && !xs.contains '}'

theorem plain_iff {xs : List Char} : plain xs ↔ '{' ∉ xs ∧ '}' ∉ xs := by
  simp [plain]

/-- Neither the name nor the value has a brace, and the value is not empty. -/
structure Rule.Plain (r : Rule) : Prop where
  name : plain r.name
  value : plain r.value
  nonempty : r.value ≠ []

/-- Rules that write plain values for distinct plain names. -/
structure PlainRules (rules : List Rule) : Prop where
  plain : ∀ r ∈ rules, r.Plain
  distinct : (rules.map Rule.name).Nodup

variable {rules rules' : List Rule} {r : Rule} {m n u xs ys : List Char} {c : Char}

/-! ## One placeholder at the front of a text -/

theorem not_prefix_of_ne (hc : c ≠ '{') : ¬braced n <+: c :: xs := by
  rintro ⟨t, ht⟩
  exact hc (cons.inj ht).1.symm

theorem not_mem_closed (hn : plain n) : '{' ∉ n ++ ['}', '}'] := by
  simp [(plain_iff.1 hn).1]

/-- No placeholder begins at the second brace of one. -/
theorem not_prefix_second (hn : plain n) : ¬braced m <+: '{' :: (n ++ ['}', '}'] ++ xs) := by
  rintro ⟨t, ht⟩
  have hhead := (cons.inj ht).2
  cases n with
  | nil => exact absurd (cons.inj hhead).1 (by decide)
  | cons d n =>
    refine not_mem_closed hn ?_
    rw [cons_append, ← (cons.inj hhead).1]
    exact mem_cons_self

theorem eq_of_closed (hm : plain m) (hn : plain n) (h : m ++ '}' :: xs = n ++ '}' :: ys) :
    m = n ∧ xs = ys := by
  rcases append_eq_append_iff.1 h with ⟨_ | ⟨d, a⟩, rfl, ha⟩ | ⟨_ | ⟨d, a⟩, rfl, ha⟩
  · simpa using ha
  · obtain rfl := (cons.inj ha).1
    exact absurd (by simp) (plain_iff.1 hn).2
  · simpa using ha.symm
  · obtain rfl := (cons.inj ha).1
    exact absurd (by simp) (plain_iff.1 hm).2

theorem braced_prefix_inj (hm : plain m) (hn : plain n) (h : braced m <+: braced n ++ xs) :
    m = n := by
  obtain ⟨t, ht⟩ := h
  simp only [braced, cons_append, append_assoc, cons.injEq, true_and] at ht
  exact (eq_of_closed hm hn ht).1

theorem substRule_eq_none_iff :
    substRule rules xs = none ↔ ∀ r ∈ rules, ¬braced r.name <+: xs := by
  simp [substRule]

theorem substRule_braced (h : PlainRules rules) (hr : r ∈ rules) :
    substRule rules (braced r.name ++ xs) = some ((braced r.name).length - 1, r.value) := by
  have hmatch : ∃ r' ∈ rules, (braced r'.name).isPrefixOf (braced r.name ++ xs) :=
    ⟨r, hr, isPrefixOf_iff_prefix.2 (prefix_append _ _)⟩
  obtain ⟨r', hfind⟩ := Option.isSome_iff_exists.1 (find?_isSome.2 hmatch)
  have hpre : braced r'.name <+: braced r.name ++ xs := by
    have := find?_some hfind
    exact isPrefixOf_iff_prefix.1 this
  have hr' := mem_of_find?_eq_some hfind
  have hname := braced_prefix_inj (h.plain r' hr').name (h.plain r hr).name hpre
  obtain rfl := inj_on_of_nodup_map h.distinct hr' hr hname
  rw [substRule, hfind, Option.map_some]

theorem braced_infix_of_append (hm : plain m) (hne : n ≠ m)
    (hn : plain n) (h : braced n <:+: braced m ++ xs) : braced n <:+: xs := by
  have hfree : ∀ {u : List Char}, '{' ∉ u → braced n <:+: u ++ xs → braced n <:+: xs := by
    intro u hu h
    induction u with
    | nil => exact h
    | cons c u ih =>
      obtain ⟨hc, hu⟩ := not_or.1 (mt mem_cons.2 hu)
      exact ih hu ((infix_cons_iff.1 h).resolve_left (not_prefix_of_ne (Ne.symm hc)))
  rcases infix_cons_iff.1 h with h | h
  · exact absurd (braced_prefix_inj hn hm h) hne
  · rcases infix_cons_iff.1 h with h | h
    · exact absurd h (not_prefix_second hm)
    · exact hfree (not_mem_closed hm) h

/-! ## The walk -/

theorem rewrite_pass {α β : Type} {keep : α → List β} {rule : List α → Option (Nat × List β)} :
    ∀ (us xs : List α), rewrite keep rule us.length (us ++ xs) = rewrite keep rule 0 xs
  | [], _ => rfl
  | _ :: us, xs => rewrite_pass us xs

theorem rewrite_hit {α β : Type} {keep : α → List β} {rule : List α → Option (Nat × List β)}
    {us xs : List α} {v : List β} (hne : us ≠ [])
    (h : rule (us ++ xs) = some (us.length - 1, v)) :
    rewrite keep rule 0 (us ++ xs) = v ++ rewrite keep rule 0 xs := by
  obtain ⟨u, us, rfl⟩ := exists_cons_of_ne_nil hne
  rw [cons_append] at h ⊢
  rw [rewrite, h]
  exact congrArg (v ++ ·) (rewrite_pass us xs)

theorem substitute_hit (h : PlainRules rules) (hr : r ∈ rules) :
    substitute rules (braced r.name ++ xs) = r.value ++ substitute rules xs :=
  rewrite_hit (cons_ne_nil _ _) (substRule_braced h hr)

theorem substitute_miss (h : ∀ r ∈ rules, ¬braced r.name <+: c :: xs) :
    substitute rules (c :: xs) = c :: substitute rules xs := by
  rw [substitute, rewrite, substRule_eq_none_iff.2 h]
  rfl

theorem substitute_nil : ∀ xs, substitute [] xs = xs
  | [] => rfl
  | c :: xs => (substitute_miss (by simp)).trans (congrArg (c :: ·) (substitute_nil xs))

/-- A run of characters that opens no brace stays as it is. -/
theorem substitute_append : ∀ {u : List Char}, '{' ∉ u →
    substitute rules (u ++ xs) = u ++ substitute rules xs
  | [], _ => rfl
  | c :: u, hu => by
    obtain ⟨hc, hu⟩ := not_or.1 (mt mem_cons.2 hu)
    rw [cons_append, substitute_miss fun _ _ => not_prefix_of_ne (Ne.symm hc),
      substitute_append hu, cons_append]

/-- Induction along the walk: a placeholder of a rule, or a character where none begins. -/
theorem walk_induction {motive : List Char → Prop} (rules : List Rule) (nil : motive [])
    (hit : ∀ r ∈ rules, ∀ xs, motive xs → motive (braced r.name ++ xs))
    (miss : ∀ c xs, (∀ r ∈ rules, ¬braced r.name <+: c :: xs) → motive xs → motive (c :: xs)) :
    ∀ xs, motive xs
  | [] => nil
  | c :: xs => by
    by_cases h : ∃ r ∈ rules, braced r.name <+: c :: xs
    · obtain ⟨r, hr, t, ht⟩ := h
      have hshort : t.length ≤ xs.length := by
        have hlen := congrArg length ht
        simp only [braced, length_append, length_cons] at hlen
        omega
      rw [← ht]
      exact hit r hr t (walk_induction rules nil hit miss t)
    · exact miss c xs (by simpa using h) (walk_induction rules nil hit miss xs)
  termination_by xs => xs.length

/-! ## Flat texts -/

theorem flat_cons_iff :
    flat (c :: xs) ↔ (∀ ys, c :: xs = '{' :: '{' :: ys → opened ys) ∧ flat xs := by
  rw [flat, Bool.and_eq_true_iff]
  refine and_congr_left fun _ => ?_
  cases xs with
  | nil => simp [isPrefixOf]
  | cons d ys =>
    by_cases hcd : c = '{' ∧ d = '{'
    · obtain ⟨rfl, rfl⟩ := hcd
      simp [isPrefixOf]
    · have hne : ['{', '{'].isPrefixOf (c :: d :: ys) = false := by
        simpa [isPrefixOf, @eq_comm Char '{'] using hcd
      rw [hne]
      refine iff_of_true rfl fun zs hzs => absurd ?_ hcd
      exact ⟨(cons.inj hzs).1, (cons.inj (cons.inj hzs).2).1⟩

theorem opened_substitute : ∀ {xs : List Char}, opened xs → opened (substitute rules xs)
  | [], h => h
  | c :: xs, h => by
    have hc : c ≠ '{' := by
      rintro rfl
      simp [opened] at h
    rw [substitute_miss fun _ _ => not_prefix_of_ne hc]
    simp only [opened, Bool.or_eq_true, Bool.and_eq_true] at h ⊢
    exact h.imp_right (And.imp_right opened_substitute)

theorem flat_append (hu : '{' ∉ u) : flat (u ++ xs) = flat xs := by
  induction u with
  | nil => rfl
  | cons c u ih =>
    obtain ⟨hc, hu⟩ := not_or.1 (mt mem_cons.2 hu)
    simp [flat, isPrefixOf, hc, ih hu]

theorem flat_of_append : ∀ {u : List Char}, flat (u ++ xs) → flat xs
  | [], h => h
  | _ :: _, h => flat_of_append (flat_cons_iff.1 h).2

/-! ## One rule -/

section OneRule

variable (hr : r.Plain)
include hr

theorem plainRules_singleton : PlainRules [r] := ⟨by simpa using hr, by simp⟩

/-- A brace that a substitution leaves at the front was there before. -/
theorem substitute_head {d : Char} (hd : d = '{' ∨ d = '}')
    (h : substitute [r] xs = d :: ys) :
    ∃ zs, xs = d :: zs ∧ ¬braced r.name <+: xs ∧ ys = substitute [r] zs := by
  cases xs with
  | nil => cases h
  | cons c zs =>
    by_cases hpre : braced r.name <+: c :: zs
    · obtain ⟨t, ht⟩ := hpre
      rw [← ht, substitute_hit (plainRules_singleton hr) mem_cons_self] at h
      obtain ⟨v, vs, hv⟩ := exists_cons_of_ne_nil hr.nonempty
      have hmem : d ∈ r.value := by
        rw [hv, cons_append] at h
        rw [hv, (cons.inj h).1]
        exact mem_cons_self
      rcases hd with rfl | rfl
      · exact absurd hmem (plain_iff.1 hr.value).1
      · exact absurd hmem (plain_iff.1 hr.value).2
    · rw [substitute_miss (by simpa using hpre)] at h
      obtain ⟨rfl, rfl⟩ := cons.inj h
      exact ⟨zs, rfl, hpre, rfl⟩

/-- The placeholder of another name stays as it is. -/
theorem substitute_kept (hn : plain n) (hne : n ≠ r.name) :
    substitute [r] (braced n ++ xs) = braced n ++ substitute [r] xs := by
  have hmiss : ∀ r' ∈ [r], ¬braced r'.name <+: braced n ++ xs := by
    intro r' hr' hpre
    obtain rfl := mem_singleton.1 hr'
    exact hne (braced_prefix_inj hr.name hn hpre).symm
  have hcons : braced n ++ xs = '{' :: '{' :: (n ++ ['}', '}'] ++ xs) := rfl
  rw [hcons] at hmiss ⊢
  rw [substitute_miss hmiss, substitute_miss fun _ _ => not_prefix_second hn,
    substitute_append (not_mem_closed hn)]
  rfl

/-- Up to the first brace that closes the text is copied. -/
theorem closed_prefix_of_substitute : ∀ {n xs : List Char}, plain n → opened xs →
    n ++ ['}', '}'] <+: substitute [r] xs → n ++ ['}', '}'] <+: xs
  | [], xs, _, _, ⟨t, ht⟩ => by
    obtain ⟨ys, rfl, -, hys⟩ := substitute_head hr (.inr rfl) ht.symm
    obtain ⟨zs, rfl, -, -⟩ := substitute_head hr (.inr rfl) hys.symm
    exact ⟨zs, rfl⟩
  | d :: n, [], _, _, ⟨t, ht⟩ => by cases ht
  | d :: n, c :: xs, hn, hopened, ⟨t, ht⟩ => by
    obtain ⟨hd, hn⟩ : plain [d] ∧ plain n := by
      simp only [plain_iff, mem_cons, not_or] at hn ⊢
      simp [hn]
    have hc : c ≠ '{' := by
      rintro rfl
      simp [opened] at hopened
    rw [substitute_miss fun _ _ => not_prefix_of_ne hc] at ht
    obtain ⟨rfl, htail⟩ := cons.inj ht
    have hclose : d ≠ '}' := by
      rintro rfl
      cases hd
    have hopened : opened xs := by simpa [opened, hc, hclose] using hopened
    exact (prefix_cons_inj d).2 (closed_prefix_of_substitute hn hopened ⟨t, htail⟩)

/-- **A substitution makes no placeholder**: one that begins a text after it began it before. -/
theorem braced_prefix_of_substitute (hn : plain n) (hflat : flat (c :: xs))
    (h : braced n <+: c :: substitute [r] xs) : braced n <+: c :: xs := by
  obtain ⟨t, ht⟩ := h
  obtain ⟨rfl, htail⟩ := cons.inj ht
  obtain ⟨zs, rfl, -, hzs⟩ := substitute_head hr (.inl rfl) htail.symm
  have hopened := (flat_cons_iff.1 hflat).1 zs rfl
  exact (prefix_cons_inj _).2 ((prefix_cons_inj _).2
    (closed_prefix_of_substitute hr hn hopened ⟨t, hzs⟩))

theorem flat_substitute : ∀ xs, flat xs → flat (substitute [r] xs) := by
  refine walk_induction [r] (fun h => h) (fun r' hr' xs ih hflat => ?_)
    fun c xs hmiss ih hflat => ?_
  · obtain rfl := mem_singleton.1 hr'
    rw [substitute_hit (plainRules_singleton hr) mem_cons_self,
      flat_append (plain_iff.1 hr.value).1]
    exact ih (flat_of_append hflat)
  · obtain ⟨hopened, hflat⟩ := flat_cons_iff.1 hflat
    rw [substitute_miss hmiss]
    refine flat_cons_iff.2 ⟨fun ys hys => ?_, ih hflat⟩
    obtain ⟨rfl, htail⟩ := cons.inj hys
    obtain ⟨zs, rfl, -, rfl⟩ := substitute_head hr (.inl rfl) htail
    exact opened_substitute (hopened zs rfl)

/-- The placeholder of another name is still in the text. -/
theorem braced_infix_substitute (hn : plain n) (hne : n ≠ r.name) :
    ∀ xs, braced n <:+: xs → braced n <:+: substitute [r] xs := by
  refine walk_induction [r, ⟨n, []⟩] (fun h => h) (fun r' hr' xs ih h => ?_)
    fun c xs hmiss ih h => ?_
  · rcases mem_pair.1 hr' with rfl | rfl
    · rw [substitute_hit (plainRules_singleton hr) mem_cons_self]
      exact (ih (braced_infix_of_append hr.name hne hn h)).trans (suffix_append _ _).isInfix
    · rw [substitute_kept hr hn hne]
      exact (prefix_append _ _).isInfix
  · rw [substitute_miss fun r' hr' => hmiss r' (by simp [mem_singleton.1 hr'])]
    have hrest := (infix_cons_iff.1 h).resolve_left (hmiss ⟨n, []⟩ (by simp))
    exact infix_cons_iff.2 (.inr (ih hrest))

end OneRule

/-! ## Rules in turn -/

theorem PlainRules.tail (h : PlainRules (r :: rules)) : PlainRules rules :=
  ⟨fun r' hr' => h.plain r' (mem_cons_of_mem r hr'), (nodup_cons.1 h.distinct).2⟩

theorem PlainRules.name_ne (h : PlainRules (r :: rules)) :
    ∀ r' ∈ rules, r'.name ≠ r.name := fun _ hr' heq =>
  (nodup_cons.1 h.distinct).1 (heq ▸ mem_map_of_mem hr')

theorem PlainRules.perm (h : PlainRules rules) (hp : rules.Perm rules') : PlainRules rules' :=
  ⟨fun r hr => h.plain r (hp.mem_iff.2 hr), (hp.map Rule.name).nodup_iff.1 h.distinct⟩

/-- **One rule and then the others**, or all of them at once. -/
theorem substitute_substitute (h : PlainRules (r :: rules)) :
    ∀ xs, flat xs → substitute rules (substitute [r] xs) = substitute (r :: rules) xs := by
  have hr := h.plain r mem_cons_self
  refine walk_induction (r :: rules) (fun _ => rfl) (fun r' hr' xs ih hflat => ?_)
    fun c xs hmiss ih hflat => ?_
  · rw [substitute_hit h hr']
    rcases mem_cons.1 hr' with rfl | hmem
    · rw [substitute_hit (plainRules_singleton hr) mem_cons_self,
        substitute_append (plain_iff.1 hr.value).1, ih (flat_of_append hflat)]
    · rw [substitute_kept hr (h.tail.plain r' hmem).name (h.name_ne r' hmem),
        substitute_hit h.tail hmem, ih (flat_of_append hflat)]
  · have hone : ∀ r' ∈ [r], ¬braced r'.name <+: c :: xs := fun r' hr' =>
      hmiss r' (mem_cons.2 (.inl (mem_singleton.1 hr')))
    have hothers : ∀ r' ∈ rules, ¬braced r'.name <+: c :: substitute [r] xs := fun r' hr' hpre =>
      hmiss r' (mem_cons_of_mem r hr')
        (braced_prefix_of_substitute hr (h.tail.plain r' hr').name hflat hpre)
    rw [substitute_miss hmiss, substitute_miss hone, substitute_miss hothers,
      ih (flat_cons_iff.1 hflat).2]

theorem foldl_substitute : ∀ {rules : List Rule} {xs : List Char}, PlainRules rules → flat xs →
    rules.foldl (fun ys r => substitute [r] ys) xs = substitute rules xs
  | [], xs, _, _ => (substitute_nil xs).symm
  | r :: rules, xs, h, hflat => by
    rw [foldl_cons, foldl_substitute h.tail (flat_substitute (h.plain r mem_cons_self) xs hflat),
      substitute_substitute h xs hflat]

theorem substitute_perm (h : PlainRules rules) (hp : rules.Perm rules') :
    ∀ xs, substitute rules xs = substitute rules' xs := by
  refine walk_induction rules rfl (fun r hr xs ih => ?_) fun c xs hmiss ih => ?_
  · rw [substitute_hit h hr, substitute_hit (h.perm hp) (hp.mem_iff.1 hr), ih]
  · rw [substitute_miss hmiss, substitute_miss fun r hr => hmiss r (hp.mem_iff.2 hr), ih]

theorem contains_iff {s old : String} : contains s old ↔ old.toList <:+: s.toList := by
  simp [contains, infix_iff_prefix_suffix, mem_tails, and_comm]

theorem toList_replaceAll {s old new : String} (h : old.toList = braced n) :
    (replaceAll s old new).toList = substitute [⟨n, new.toList⟩] s.toList := by
  have hrule : replaceRule old.toList new.toList = substRule [⟨n, new.toList⟩] := by
    funext xs
    rw [replaceRule, h]
    by_cases hpre : (braced n).isPrefixOf xs <;> simp [substRule, hpre]
  rw [replaceAll, String.toList_ofList, hrule, substitute]

/-! ## Values inside a JSON string -/

theorem plain_append : plain (u ++ xs) ↔ plain u ∧ plain xs := by
  simp only [plain_iff, mem_append, not_or]
  tauto

theorem plain_escapeChar (hc : plain [c]) : plain (Json.escapeChar c) := by
  have hdigit : ∀ k < 16, plain [Json.hexDigit k] := by decide
  have hhex (n : Nat) : plain [Json.hexDigit (n % 16)] := hdigit _ (Nat.mod_lt n (by decide))
  unfold Json.escapeChar
  split_ifs
  · decide
  · decide
  · decide
  · decide
  · decide
  · decide
  · decide
  · have hhead : plain ['\\', 'u'] := by decide
    unfold Json.unicodeEscape
    exact plain_append.2 ⟨hhead, plain_append.2 ⟨hhex _, plain_append.2 ⟨hhex _,
      plain_append.2 ⟨hhex _, hhex _⟩⟩⟩⟩
  · exact hc

theorem plain_escape {s : String} (h : plain s.toList) : plain (Json.escape s).toList := by
  rw [Json.escape, String.toList_ofList]
  generalize s.toList = xs at h
  induction xs with
  | nil => rfl
  | cons c xs ih =>
    obtain ⟨hc, hxs⟩ := (plain_append (u := [c])).1 h
    exact plain_append.2 ⟨plain_escapeChar hc, ih hxs⟩

theorem escape_ne_nil {s : String} (h : s ≠ "") : (Json.escape s).toList ≠ [] := by
  rw [Json.escape, String.toList_ofList]
  obtain ⟨c, cs, hs⟩ := exists_cons_of_ne_nil (mt String.toList_eq_nil_iff.1 h)
  have hc : Json.escapeChar c ≠ [] := by
    unfold Json.escapeChar Json.unicodeEscape
    split_ifs <;> simp
  rw [hs]
  simp [hc]

/-! ## Texts with escapes -/

section Glyphs

open Json

/-- The glyph is the character it stands for, or an escape that opens no brace and stands for no
character in `markup`. -/
def Inert (markup : Char → Bool) (g : Glyph) : Prop :=
  g.raw = [g.char] ∨ ('{' ∉ g.raw ∧ markup g.char = false)

theorem glyphs_raw : ∀ xs, (glyphs xs).flatMap Glyph.raw = xs ∧
    ∀ g ∈ glyphs xs, g.raw = [g.char] ∨ g.raw.head? = some '\\' := by
  intro xs
  fun_induction glyphs xs with
  | case1 a b c d rest ih => simpa using ih
  | case2 c rest _ ih => simpa using ih
  | case3 c rest _ _ ih => simpa using ih
  | case4 => simp

variable {markup : Char → Bool}

theorem prefix_glyphs_iff (hslash : markup '\\' = false) : ∀ {n : List Char} {gs : List Glyph},
    (∀ c ∈ n, markup c) →
    (∀ g ∈ gs, Inert markup g ∧ (g.raw = [g.char] ∨ g.raw.head? = some '\\')) →
    (n <+: gs.flatMap Glyph.raw ↔ n <+: gs.map Glyph.char)
  | [], gs, _, _ => by simp
  | c :: n, [], _, _ => by simp
  | c :: n, g :: gs, hn, hgs => by
    obtain ⟨hc, hn⟩ := forall_mem_cons.1 hn
    obtain ⟨⟨hinert, hraw⟩, hgs⟩ := forall_mem_cons.1 hgs
    rw [flatMap_cons, map_cons]
    by_cases hplain : g.raw = [g.char]
    · rw [hplain, singleton_append, cons_prefix_cons, cons_prefix_cons,
        prefix_glyphs_iff hslash hn hgs]
    · -- neither the backslash nor what the escape stands for is a character of a placeholder
      obtain ⟨w, hw⟩ := head?_eq_some_iff.1 (hraw.resolve_left hplain)
      have hchar := (hinert.resolve_left hplain).2
      rw [hw, cons_append, cons_prefix_cons, cons_prefix_cons]
      refine iff_of_false ?_ ?_ <;>
        · rintro ⟨rfl, -⟩
          simp_all

theorem raw_of_marked {name : List Char} {us : List Glyph} (hname : ∀ c ∈ name, markup c)
    (hus : us.map Glyph.char = name) (hinert : ∀ u ∈ us, Inert markup u) :
    us.flatMap Glyph.raw = name := by
  have hplain : ∀ u ∈ us, u.raw = [u.char] := by
    intro u hu
    have hmark : markup u.char := hname _ (hus ▸ mem_map_of_mem hu)
    exact (hinert u hu).resolve_right fun h => absurd (hmark.symm.trans h.2) (by decide)
  rw [flatMap_congr hplain, ← map_eq_flatMap, hus]

/-- **Placeholders read through escapes** are those of the text itself, where every escape is
inert. -/
theorem rewrite_glyphs (h : PlainRules rules) (hslash : markup '\\' = false)
    (hrules : ∀ r ∈ rules, ∀ c ∈ braced r.name, markup c) : ∀ {gs : List Glyph},
    (∀ g ∈ gs, Inert markup g ∧ (g.raw = [g.char] ∨ g.raw.head? = some '\\')) →
    rewrite Glyph.raw (fun gs => substRule rules (gs.map Glyph.char)) 0 gs =
      substitute rules (gs.flatMap Glyph.raw)
  | [], _ => rfl
  | g :: gs, hgs => by
    have hpre : ∀ r ∈ rules, (braced r.name <+: (g :: gs).flatMap Glyph.raw ↔
        braced r.name <+: (g :: gs).map Glyph.char) := fun r hr =>
      prefix_glyphs_iff hslash (hrules r hr) hgs
    by_cases hmatch : ∃ r ∈ rules, braced r.name <+: (g :: gs).map Glyph.char
    · obtain ⟨r, hr, t, ht⟩ := hmatch
      obtain ⟨us, ts, hsplit, hus, rfl⟩ := map_eq_append_iff.1 ht.symm
      have hne : us ≠ [] := by
        rintro rfl
        cases hus
      have hshort : ts.length ≤ gs.length := by
        have hlen := congrArg length hsplit
        rw [length_append, length_cons] at hlen
        have hpos := length_pos_of_ne_nil hne
        omega
      rw [hsplit] at hgs ⊢
      have hraw := raw_of_marked (hrules r hr) hus fun u hu => (hgs u (mem_append_left ts hu)).1
      have hrule : substRule rules ((us ++ ts).map Glyph.char) = some (us.length - 1, r.value) := by
        rw [map_append, hus, substRule_braced h hr, ← hus, length_map]
      rw [rewrite_hit hne hrule, flatMap_append, hraw, substitute_hit h hr,
        rewrite_glyphs h hslash hrules fun u hu => hgs u (mem_append_right us hu)]
    · have hmiss : ∀ r ∈ rules, ¬braced r.name <+: (g :: gs).map Glyph.char := by simpa using hmatch
      rw [rewrite, substRule_eq_none_iff.2 hmiss, flatMap_cons]
      dsimp only
      obtain ⟨⟨hinert, -⟩, hgs⟩ := forall_mem_cons.1 hgs
      rw [rewrite_glyphs h hslash hrules hgs]
      rcases hinert with hplain | ⟨hopen, -⟩
      · rw [flatMap_cons, hplain, singleton_append] at hpre
        rw [hplain, singleton_append, singleton_append,
          substitute_miss fun r hr => mt (hpre r hr).1 (hmiss r hr)]
      · rw [substitute_append hopen]
  termination_by gs => gs.length

end Glyphs

end Cerbix.Lib.Text
