import Mathlib.Data.List.Basic
import Mathlib.Data.List.Infix

/-! # Text

The letters and the trimming of the standard library, on lists of characters: white space, the
lower case of ASCII, prefixes taken off. -/
namespace Text

/-- The Unicode property `White_Space`. -/
def isWhiteSpace (c : Char) : Bool :=
  let n := c.toNat
  decide (9 ≤ n ∧ n ≤ 13 ∨ n = 0x20 ∨ n = 0x85 ∨ n = 0xa0 ∨ n = 0x1680 ∨ 0x2000 ≤ n ∧ n ≤ 0x200a ∨
    n = 0x2028 ∨ n = 0x2029 ∨ n = 0x202f ∨ n = 0x205f ∨ n = 0x3000)

/-- Take off what satisfies `p` at the end. -/
def trimEndBy (p : Char → Bool) (s : List Char) : List Char := (s.reverse.dropWhile p).reverse

/-- `trim`: white space off both ends. -/
def trim (s : List Char) : List Char := trimEndBy isWhiteSpace (s.dropWhile isWhiteSpace)

def isAsciiLower (c : Char) : Bool := decide ('a' ≤ c ∧ c ≤ 'z')

def isAsciiDigit (c : Char) : Bool := decide ('0' ≤ c ∧ c ≤ '9')

def isAsciiHexDigit (c : Char) : Bool :=
  isAsciiDigit c || decide ('a' ≤ c ∧ c ≤ 'f') || decide ('A' ≤ c ∧ c ≤ 'F')

/-- `to_ascii_lowercase`, of one character. -/
def asciiLower (c : Char) : Char :=
  if 'A' ≤ c ∧ c ≤ 'Z' then Char.ofNat (c.toNat + 32) else c

/-- `strip_prefix`, or else the text itself. -/
def withoutPrefix (pre s : List Char) : List Char := if pre.isPrefixOf s then s.drop pre.length else s

/-! ## Taking texts apart -/

/-- `strip_prefix`. -/
def stripPrefix (pre s : List Char) : Option (List Char) :=
  if pre.isPrefixOf s then some (s.drop pre.length) else none

/-- `strip_suffix`. -/
def stripSuffix (suf s : List Char) : Option (List Char) :=
  if suf.isSuffixOf s then some (s.take (s.length - suf.length)) else none

/-- `split_once`: what stands before and after the first place of a separator. -/
def splitOnce (sep : List Char) : List Char → Option (List Char × List Char)
  | [] => if sep.isEmpty then some ([], []) else none
  | c :: cs =>
    if sep.isPrefixOf (c :: cs) then some ([], (c :: cs).drop sep.length)
    else (splitOnce sep cs).map fun parts => (c :: parts.1, parts.2)

/-- `split_inclusive` at line breaks. -/
def splitInclusive : List Char → List (List Char)
  | [] => []
  | c :: cs =>
    if c = '\n' then [c] :: splitInclusive cs
    else match splitInclusive cs with
      | [] => [[c]]
      | l :: ls => (c :: l) :: ls

/-- `lines`: a carriage return goes only with the line break behind it. -/
def lines (s : List Char) : List (List Char) :=
  (splitInclusive s).map fun l =>
    match stripSuffix ['\n'] l with
    | none => l
    | some l => (stripSuffix ['\r'] l).getD l

end Text

/-! # Names under names

Names are words over an alphabet, their labels separated by one letter.  A name is under another
when it is that name or has it as its tail, from a separator on.  The names above a name form a
chain. -/
namespace NameTree

variable {α : Type} {sep : α} {a b c : List α}

/-- `a` is `b`, or a name below it. -/
def Under (sep : α) (a b : List α) : Prop := a = b ∨ sep :: b <:+ a

instance [DecidableEq α] : Decidable (Under sep a b) := inferInstanceAs (Decidable (_ ∨ _))

theorem Under.refl (a : List α) : Under sep a a := Or.inl rfl

theorem Under.suffix (h : Under sep a b) : b <:+ a := by
  rcases h with rfl | h
  · exact List.suffix_rfl
  · exact (List.suffix_cons sep b).trans h

theorem Under.trans (h : Under sep a b) (h' : Under sep b c) : Under sep a c := by
  rcases h' with rfl | h'
  · exact h
  · exact Or.inr (h'.trans h.suffix)

/-- One of two tails from a separator on is under the other. -/
theorem under_of_suffix (h : sep :: b <:+ sep :: c) : Under sep c b := by
  rcases List.suffix_cons_iff.mp h with heq | h
  · exact Or.inl (List.cons.inj heq).2.symm
  · exact Or.inr h

/-- **What is above one name is a chain.** -/
theorem Under.total (h : Under sep a b) (h' : Under sep a c) : Under sep b c ∨ Under sep c b := by
  rcases h with rfl | h
  · exact Or.inl h'
  rcases h' with rfl | h'
  · exact Or.inr (Or.inr h)
  rcases List.suffix_or_suffix_of_suffix h h' with hs | hs
  · exact Or.inr (under_of_suffix hs)
  · exact Or.inl (under_of_suffix hs)

end NameTree
