import Mathlib.Data.List.DropRight
import Mathlib.Data.List.Sort
import Mathlib.Data.String.Basic

/-!
# Operations on text, and JSON documents

The functions of Go's `strings` package, on the characters of a string. `len` is the size in bytes
(`String.utf8ByteSize`), white space that of `unicode.IsSpace`; case folding is that of ASCII. A
document is as a decoder leaves it, a number as the text it is written back as; `Json.get?` is one
step of a path.
-/

namespace Cerbix.Lib.Text

open List

def hasPrefix (s p : String) : Bool := p.toList.isPrefixOf s.toList

def hasSuffix (s p : String) : Bool := p.toList.isSuffixOf s.toList

def trimPrefix (s p : String) : String :=
  if hasPrefix s p then String.ofList (s.toList.drop p.toList.length) else s

theorem hasPrefix_append (p s : String) : hasPrefix (p ++ s) p := by
  rw [hasPrefix, String.toList_append, isPrefixOf_iff_prefix]
  exact prefix_append _ _

theorem trimPrefix_append (p s : String) : trimPrefix (p ++ s) p = s := by
  rw [trimPrefix, if_pos (hasPrefix_append p s), String.toList_append, drop_left,
    String.ofList_toList]

theorem append_trimPrefix {s p : String} (h : hasPrefix s p) : p ++ trimPrefix s p = s := by
  obtain ⟨t, ht⟩ := isPrefixOf_iff_prefix.1 h
  rw [trimPrefix, if_pos h, ← ht, drop_left, ← String.toList_inj, String.toList_append,
    String.toList_ofList, ht]

def trimSuffix (s p : String) : String :=
  if hasSuffix s p then String.ofList (s.toList.take (s.toList.length - p.toList.length)) else s

/-- Go's `unicode.IsSpace`: the white space of Latin-1, and the other characters of Unicode's
property `White_Space`. -/
def isSpace (c : Char) : Bool :=
  let n := c.toNat
  (9 ≤ n && n ≤ 13) || n = 0x20 || n = 0x85 || n = 0xA0 || n = 0x1680 ||
    (0x2000 ≤ n && n ≤ 0x200A) || n = 0x2028 || n = 0x2029 || n = 0x202F || n = 0x205F ||
    n = 0x3000

def trimRightWhere (p : Char → Bool) (s : String) : String :=
  String.ofList (s.toList.reverse.dropWhile p).reverse

/-- `strings.TrimSpace`. -/
def trimSpace (s : String) : String :=
  String.ofList ((trimRightWhere isSpace s).toList.dropWhile isSpace)

/-- Nothing is left of the text when it is trimmed. -/
def blank (s : String) : Bool := s.toList.all isSpace

theorem blank_iff (s : String) : blank s ↔ trimSpace s = "" := by
  have hdrop (xs : List Char) : xs.dropWhile isSpace = [] ↔ ∀ c ∈ xs, isSpace c :=
    dropWhile_eq_nil_iff
  rw [blank, all_eq_true, trimSpace, trimRightWhere, String.toList_ofList, ← String.toList_inj,
    String.toList_ofList]
  show _ ↔ _ = []
  rw [hdrop]
  constructor
  · intro h c hc
    have hc' : c ∈ s.toList.reverse := (dropWhile_sublist _).subset (mem_reverse.1 hc)
    exact h c (mem_reverse.1 hc')
  · intro h
    -- the text begins with what the trimming from the right leaves, and that is only spaces
    have hleft : (s.toList.reverse.dropWhile isSpace) = [] := by
      cases hrest : s.toList.reverse.dropWhile isSpace with
      | nil => rfl
      | cons c cs =>
        have hne : s.toList.reverse.dropWhile isSpace ≠ [] := by
          rw [hrest]
          exact cons_ne_nil c cs
        have hhead := head_dropWhile_not (p := isSpace) hne
        simp only [hrest, head_cons] at hhead
        rw [hrest] at h
        rw [h c (by simp)] at hhead
        cases hhead
    intro c hc
    exact (hdrop _).1 hleft c (mem_reverse.2 hc)

/-- `strings.ToLower` on ASCII letters; other characters stay as they are. -/
def lower (s : String) : String := String.ofList (s.toList.map Char.toLower)

/-- `strings.Split` at one character. -/
def split (c : Char) (s : String) : List String := (s.toList.splitOn c).map String.ofList

/-- `%q` of a text without escapes. -/
def quote (s : String) : String := "\"" ++ s ++ "\""

def containsAny (s : String) (p : Char → Bool) : Bool := s.toList.any p

/-- One character in `first`, then at most `n` in `rest`, and nothing else. -/
def matchesClass (first rest : Char → Bool) (n : Nat) (s : String) : Bool :=
  match s.toList with
  | [] => false
  | c :: cs => first c && cs.all rest && cs.length ≤ n

theorem of_matchesClass {first rest : Char → Bool} {n : Nat} {s : String} {c : Char}
    (h : matchesClass first rest n s) (hc : c ∈ s.toList) : first c || rest c := by
  unfold matchesClass at h
  split at h
  · cases h
  next d ds hs =>
  simp only [Bool.and_eq_true, all_eq_true] at h
  rw [hs] at hc
  rcases mem_cons.1 hc with rfl | hc
  · simp [h.1.1]
  · simp [h.1.2 c hc]

def isLetter (c : Char) : Bool := ('a' ≤ c && c ≤ 'z') || ('A' ≤ c && c ≤ 'Z')

def isDigit (c : Char) : Bool := '0' ≤ c && c ≤ '9'

/-- A number in decimal digits. -/
def digits (s : List Char) : Option Nat :=
  match s with
  | [] => none
  | cs =>
    if cs.all isDigit then some (cs.foldl (fun n c => 10 * n + (c.toNat - '0'.toNat)) 0) else none

def itoa (n : Int) : String := n.repr

def sortStrings (xs : List String) : List String := xs.insertionSort (· ≤ ·)

theorem sortStrings_perm (xs : List String) : (sortStrings xs).Perm xs := perm_insertionSort _ xs

@[simp] theorem mem_sortStrings {xs : List String} {x : String} : x ∈ sortStrings xs ↔ x ∈ xs :=
  (sortStrings_perm xs).mem_iff

/-- `strconv.Atoi`. -/
def atoi (s : String) : Option Int :=
  match s.toList with
  | '-' :: cs => (digits cs).map fun n => -(n : Int)
  | '+' :: cs => (digits cs).map fun n => (n : Int)
  | cs => (digits cs).map fun n => (n : Int)

/-- Walk over `xs`. Where `rule` matches, write what it says and pass over the element and as many
after it as it says; elsewhere write what `keep` says. -/
def rewrite {α β : Type} (keep : α → List β) (rule : List α → Option (Nat × List β)) :
    (pass : Nat) → List α → List β
  | _, [] => []
  | pass + 1, _ :: xs => rewrite keep rule pass xs
  | 0, x :: xs =>
    match rule (x :: xs) with
    | some (pass, out) => out ++ rewrite keep rule pass xs
    | none => keep x ++ rewrite keep rule 0 xs

/-- The rule that writes `new` for `old`. -/
def replaceRule (old new : List Char) (xs : List Char) : Option (Nat × List Char) :=
  if old.isPrefixOf xs then some (old.length - 1, new) else none

/-- `ReplaceAll`, for a text `old` that is not empty. -/
def replaceAll (s old new : String) : String :=
  String.ofList (rewrite (fun c => [c]) (replaceRule old.toList new.toList) 0 s.toList)

/-- `strings.Contains`. -/
def contains (s old : String) : Bool := s.toList.tails.any fun xs => old.toList.isPrefixOf xs

example : trimSpace "  Up \n" = "Up" := by decide +kernel

example : split '.' "result.items.0" = ["result", "items", "0"] := by decide +kernel

example : atoi "-12" = some (-12) := by decide +kernel

example : replaceAll "a<b><b" "<b" "xy" = "axy>xy" := by decide +kernel

end Cerbix.Lib.Text

namespace Cerbix.Lib

/-- A JSON document. A number keeps its text. -/
inductive Json
  | null
  | bool (b : Bool)
  | num (text : String)
  | str (s : String)
  | arr (items : List Json)
  | obj (fields : List (String × Json))

namespace Json

def get? (doc : Json) (seg : String) : Option Json :=
  match doc with
  | .obj fields => fields.lookup seg
  | .arr items =>
    match Text.atoi seg with
    | none => none
    | some i => if i < 0 then none else items[i.toNat]?
  | _ => none

/-- The value at a path. -/
def follow (doc : Json) : List String → Option Json
  | [] => some doc
  | seg :: rest => (doc.get? seg).bind fun v => v.follow rest

def scalar? : Json → Option String
  | .str s => some s
  | .bool b => some (if b then "true" else "false")
  | .num text => some text
  | _ => none

def hexDigit (n : Nat) : Char := if n < 10 then Char.ofNat (48 + n) else Char.ofNat (87 + n)

def unicodeEscape (n : Nat) : List Char :=
  ['\\', 'u', hexDigit (n / 4096 % 16), hexDigit (n / 256 % 16), hexDigit (n / 16 % 16),
    hexDigit (n % 16)]

/-- How Go's encoder writes a character. -/
def escapeChar (c : Char) : List Char :=
  if c = '"' then ['\\', '"']
  else if c = '\\' then ['\\', '\\']
  else if c = '\n' then ['\\', 'n']
  else if c = '\r' then ['\\', 'r']
  else if c = '\t' then ['\\', 't']
  else if c.toNat = 8 then ['\\', 'b']
  else if c.toNat = 12 then ['\\', 'f']
  else if c.toNat < 32 || c = '<' || c = '>' || c = '&' || c.toNat = 0x2028 || c.toNat = 0x2029 then
    unicodeEscape c.toNat
  else [c]

def escape (s : String) : String := String.ofList (s.toList.flatMap escapeChar)

/-- A character of a JSON string, with how it is written. -/
structure Glyph where
  raw : List Char
  char : Char
  deriving DecidableEq, Repr

def hexValue (c : Char) : Nat :=
  if '0' ≤ c ∧ c ≤ '9' then c.toNat - 48
  else if 'a' ≤ c ∧ c ≤ 'f' then c.toNat - 87
  else if 'A' ≤ c ∧ c ≤ 'F' then c.toNat - 55
  else 0

def unescapeChar (c : Char) : Char :=
  if c = 'n' then '\n' else if c = 'r' then '\r' else if c = 't' then '\t'
  else if c = 'b' then Char.ofNat 8 else if c = 'f' then Char.ofNat 12 else c

/-- The characters of a text whose escapes are read. -/
def glyphs : List Char → List Glyph
  | '\\' :: 'u' :: a :: b :: c :: d :: rest =>
    ⟨['\\', 'u', a, b, c, d],
      Char.ofNat (4096 * hexValue a + 256 * hexValue b + 16 * hexValue c + hexValue d)⟩ ::
        glyphs rest
  | '\\' :: c :: rest => ⟨['\\', c], unescapeChar c⟩ :: glyphs rest
  | c :: rest => ⟨[c], c⟩ :: glyphs rest
  | [] => []

example : (glyphs "a\\u007bb".toList).map Glyph.char = "a\x7bb".toList := by decide +kernel

end Json

end Cerbix.Lib
