import Kintrinsic.FrameCodec

/-! # JSON as it is written

The text that `serde_json::to_string` makes of a value: no blanks, and in a text only quotes,
backslashes and control characters escaped. -/
namespace Kintrinsic

namespace Json

/-! ## The writer -/

def hexLower (n : Nat) : Char := "0123456789abcdef".toList.getD n '0'

/-- A character inside a text. -/
def escaped (c : Char) : List Char :=
  if c = '"' then ['\\', '"']
  else if c = '\\' then ['\\', '\\']
  else if c = '\x08' then ['\\', 'b']
  else if c = '\t' then ['\\', 't']
  else if c = '\n' then ['\\', 'n']
  else if c = '\x0c' then ['\\', 'f']
  else if c = '\r' then ['\\', 'r']
  else if c.toNat < 32 then
    ['\\', 'u', '0', '0', hexLower (c.toNat / 16), hexLower (c.toNat % 16)]
  else [c]

def quoted (s : String) : List Char := '"' :: s.toList.flatMap escaped ++ ['"']

mutual

def chars : Json → List Char
  | .null => "null".toList
  | .bool true => "true".toList
  | .bool false => "false".toList
  | .int n => (toString n).toList
  | .float text => text.toList
  | .str s => quoted s
  | .arr elems => '[' :: elemChars elems ++ [']']
  | .obj fields => '\x7b' :: fieldChars fields ++ ['\x7d']

def elemChars : List Json → List Char
  | [] => []
  | [v] => chars v
  | v :: next :: rest => chars v ++ ',' :: elemChars (next :: rest)

def fieldChars : List (String × Json) → List Char
  | [] => []
  | [(k, v)] => quoted k ++ ':' :: chars v
  | (k, v) :: next :: rest => quoted k ++ ':' :: chars v ++ ',' :: fieldChars (next :: rest)

end

/-- `serde_json::to_string`. -/
def text (v : Json) : String := String.ofList v.chars

example : (Json.obj [("a", .arr [.int 3, .str "b\n"])]).text = "\x7b\"a\":[3,\"b\\n\"]\x7d" := by
  decide

/-! ## How long it is -/

/-- The bytes that characters take. -/
def width (l : List Char) : Nat := (l.map Char.utf8Size).sum

@[simp] theorem width_nil : width [] = 0 := rfl

@[simp] theorem width_cons (c : Char) (l : List Char) : width (c :: l) = c.utf8Size + width l :=
  List.sum_cons

@[simp] theorem width_append (l l' : List Char) : width (l ++ l') = width l + width l' := by
  unfold width
  rw [List.map_append, List.sum_append]

theorem utf8ByteSize_ofList (l : List Char) : (String.ofList l).utf8ByteSize = width l := by
  induction l with
  | nil => rfl
  | cons c l ih =>
    have happend : String.ofList (c :: l) = String.singleton c ++ String.ofList l := by
      rw [String.singleton_eq_ofList, ← String.ofList_append]
      rfl
    rw [happend, String.utf8ByteSize_append, String.utf8ByteSize_singleton, ih, width_cons]

/-- From one to four bytes a character. -/
theorem width_bounds (l : List Char) : l.length ≤ width l ∧ width l ≤ 4 * l.length := by
  induction l with
  | nil => exact ⟨Nat.zero_le _, Nat.zero_le _⟩
  | cons c l ih =>
    have hpos := c.utf8Size_pos
    have hfour := c.utf8Size_le_four
    rw [width_cons, List.length_cons]
    omega

theorem width_escaped (c : Char) : 1 ≤ width (escaped c) ∧ width (escaped c) ≤ 6 := by
  unfold escaped
  split_ifs
  · decide
  · decide
  · decide
  · decide
  · decide
  · decide
  · decide
  · have hhigh : hexLower (c.toNat / 16) = '0' ∨ hexLower (c.toNat / 16) = '1' := by
      have hlt : c.toNat / 16 < 2 := by omega
      interval_cases c.toNat / 16
      · exact .inl rfl
      · exact .inr rfl
    have hlow : (hexLower (c.toNat % 16)).utf8Size = 1 := by
      have hlt : c.toNat % 16 < 16 := Nat.mod_lt _ (by decide)
      interval_cases c.toNat % 16 <;> decide
    rcases hhigh with hhigh | hhigh <;>
      rw [hhigh] <;> simp only [width_cons, width_nil, hlow] <;> decide
  · have hpos := c.utf8Size_pos
    have hfour := c.utf8Size_le_four
    rw [width_cons, width_nil]
    omega

theorem width_flatMap_escaped (l : List Char) :
    l.length ≤ width (l.flatMap escaped) ∧ width (l.flatMap escaped) ≤ 6 * l.length := by
  induction l with
  | nil => exact ⟨Nat.zero_le _, Nat.zero_le _⟩
  | cons c l ih =>
    have hc := width_escaped c
    rw [List.flatMap_cons, width_append, List.length_cons]
    omega

/-- **A text is written in** no less than its characters, and in six bytes of each at most. -/
theorem width_quoted (s : String) : s.toList.length + 2 ≤ width (quoted s) ∧
    width (quoted s) ≤ 6 * s.toList.length + 2 := by
  have hchars := width_flatMap_escaped s.toList
  have hquote : '"'.utf8Size = 1 := by decide
  unfold quoted
  rw [width_append, width_cons, width_cons, width_nil, hquote]
  omega

/-- A character that is written as it is, in one byte. -/
def Plain (c : Char) : Prop := escaped c = [c] ∧ c.utf8Size = 1

instance : DecidablePred Plain := fun c => inferInstanceAs (Decidable (escaped c = [c] ∧ _))

/-- A plain text is written as it is. -/
theorem width_quoted_plain {s : String} (h : ∀ c ∈ s.toList, Plain c) :
    width (quoted s) = s.toList.length + 2 := by
  have hchars : ∀ l : List Char, (∀ c ∈ l, Plain c) → width (l.flatMap escaped) = l.length := by
    intro l hl
    induction l with
    | nil => rfl
    | cons c l ih =>
      obtain ⟨hc, hl⟩ := List.forall_mem_cons.mp hl
      rw [List.flatMap_cons, hc.1, width_append, width_cons, width_nil, hc.2, ih hl,
        List.length_cons]
      omega
  have hquote : '"'.utf8Size = 1 := by decide
  unfold quoted
  rw [width_append, width_cons, width_cons, width_nil, hquote, hchars _ h]
  omega

/-- A field is written in full. -/
theorem width_le_fieldChars {fields : List (String × Json)} {k : String} {v : Json}
    (h : (k, v) ∈ fields) : width v.chars ≤ width (fieldChars fields) := by
  induction fields with
  | nil => cases h
  | cons field rest ih =>
    obtain ⟨k', v'⟩ := field
    cases rest with
    | nil =>
      obtain ⟨rfl, rfl⟩ := Prod.mk.inj (List.mem_singleton.mp h)
      rw [fieldChars, width_append, width_cons]
      omega
    | cons next rest =>
      rw [fieldChars, width_append, width_append, width_cons, width_cons]
      rcases List.mem_cons.mp h with heq | htail
      · obtain ⟨rfl, rfl⟩ := Prod.mk.inj heq
        omega
      · have hrest := ih htail
        omega

/-- **A text among the fields is no longer than what is written of them.** -/
theorem length_le_text {fields : List (String × Json)} {k s : String}
    (h : (k, Json.str s) ∈ fields) : s.toList.length ≤ (text (.obj fields)).utf8ByteSize := by
  have hquoted := (width_quoted s).1
  have hfield := width_le_fieldChars h
  unfold text
  rw [utf8ByteSize_ofList, chars, width_append, width_cons]
  rw [chars] at hfield
  omega

end Json

end Kintrinsic
