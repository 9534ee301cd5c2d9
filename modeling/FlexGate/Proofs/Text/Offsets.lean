import FlexGate.Proofs.Text.Utf8

/-!
# Offsets into the bytes of a text

A place in a text is found as an offset into its bytes. The text may be cut there if no character
lies across the offset. This is told from one byte, since a character has one byte that starts it
and others that only go on with it (`exists_utf8EncodeChar_eq`). So a text may be cut behind each of
its characters and nowhere else (`isBoundary_encode_iff`), both pieces are then what stands on the
two sides (`before?_append`, `after?_append`), and a column that is counted in the piece before the
offset counts the characters there (`column?_append`).
-/

set_option autoImplicit false
set_option relaxedAutoImplicit false

namespace FlexGate.Text.Utf8

/-- A byte that goes on with a character. -/
def isContinuation (b : UInt8) : Bool := 0x80 ≤ b.toNat && b.toNat < 0xC0

/-- Whether bytes may be cut at an offset: where they end, or before a byte that starts a
character. -/
def isBoundary (bytes : List UInt8) (offset : Nat) : Bool :=
  match bytes[offset]? with
  | some b => !isContinuation b
  | none => offset == bytes.length

/-- The offset behind a text. -/
def size (text : List Char) : Nat := (encode text).length

/-- The text before an offset, unless the text cannot be cut there. -/
def before? (text : List Char) (offset : Nat) : Option (List Char) :=
  if isBoundary (encode text) offset then decode? ((encode text).take offset) else none

/-- The text from an offset on, unless the text cannot be cut there. -/
def after? (text : List Char) (offset : Nat) : Option (List Char) :=
  if isBoundary (encode text) offset then decode? ((encode text).drop offset) else none

/-- The text between two offsets, unless the text cannot be cut there. -/
def between? (text : List Char) (first last : Nat) : Option (List Char) :=
  if isBoundary (encode text) first && isBoundary (encode text) last && first ≤ last then
    decode? (((encode text).take last).drop first)
  else none

/-- The column at an offset, in characters, unless the text cannot be cut there. -/
def column? (text : List Char) (offset : Nat) : Option Nat :=
  (before? text offset).map fun before ↦ before.length + 1

theorem encode_append (before after : List Char) :
    encode (before ++ after) = encode before ++ encode after := by
  unfold encode
  exact List.flatMap_append

theorem encode_cons (c : Char) (text : List Char) :
    encode (c :: text) = String.utf8EncodeChar c ++ encode text :=
  List.flatMap_cons

theorem size_append (before after : List Char) :
    size (before ++ after) = size before + size after := by
  unfold size
  rw [encode_append, List.length_append]

/-! ### Bytes that start a character -/

theorem isContinuation_ofNat_add {v : Nat} (h : v < 64) :
    isContinuation (UInt8.ofNat (v + 0x80)) = true := by
  have hb : (UInt8.ofNat (v + 0x80)).toNat = v + 0x80 := by simp; omega
  unfold isContinuation
  rw [hb, Bool.and_eq_true, decide_eq_true_iff, decide_eq_true_iff]
  omega

theorem not_isContinuation_ofNat {v : Nat} (h : v < 256) (hv : v < 0x80 ∨ 0xC0 ≤ v) :
    isContinuation (UInt8.ofNat v) = false := by
  have hb : (UInt8.ofNat v).toNat = v := by simp; omega
  unfold isContinuation
  rw [hb, Bool.and_eq_false_iff, decide_eq_false_iff_not, decide_eq_false_iff_not]
  omega

/-- The first byte of a character starts it, and the others go on with it. -/
theorem exists_utf8EncodeChar_eq (c : Char) :
    ∃ first others, String.utf8EncodeChar c = first :: others ∧ isContinuation first = false ∧
      ∀ b ∈ others, isContinuation b = true := by
  have hsix (v : Nat) : isContinuation (UInt8.ofNat (v % 64 + 0x80)) = true :=
    isContinuation_ofNat_add (Nat.mod_lt v (by decide))
  have hnone : ∀ b ∈ ([] : List UInt8), isContinuation b = true := by simp
  have hone (v : Nat) : ∀ b ∈ [UInt8.ofNat (v % 64 + 0x80)], isContinuation b = true :=
    List.forall_mem_cons.mpr ⟨hsix v, hnone⟩
  rw [String.utf8EncodeChar]
  split
  case isTrue =>
    exact ⟨_, [], rfl, not_isContinuation_ofNat (by omega) (.inl (by omega)), hnone⟩
  case isFalse =>
    split
    case isTrue =>
      exact ⟨_, _, rfl, not_isContinuation_ofNat (by omega) (.inr (by omega)), hone _⟩
    case isFalse =>
      split
      case isTrue =>
        refine ⟨_, _, rfl, not_isContinuation_ofNat (by omega) (.inr (by omega)), ?_⟩
        exact List.forall_mem_cons.mpr ⟨hsix _, hone _⟩
      case isFalse =>
        refine ⟨_, _, rfl, not_isContinuation_ofNat (by omega) (.inr (by omega)), ?_⟩
        exact List.forall_mem_cons.mpr ⟨hsix _, List.forall_mem_cons.mpr ⟨hsix _, hone _⟩⟩

/-! ### Where a text may be cut -/

theorem isBoundary_append (front bytes : List UInt8) (offset : Nat) :
    isBoundary (front ++ bytes) (front.length + offset) = isBoundary bytes offset := by
  unfold isBoundary
  rw [List.getElem?_append_right (Nat.le_add_right _ _), Nat.add_sub_cancel_left,
    List.length_append]
  split
  · rfl
  · rw [Bool.eq_iff_iff, beq_iff_eq, beq_iff_eq]
    omega

/-- Before the first character a text may be cut. -/
theorem isBoundary_zero (text : List Char) : isBoundary (encode text) 0 = true := by
  cases text with
  | nil => rfl
  | cons c text =>
    obtain ⟨first, others, hc, hfirst, -⟩ := exists_utf8EncodeChar_eq c
    rw [encode_cons, hc]
    unfold isBoundary
    simp [hfirst]

/-- Within a character a text may not be cut. -/
theorem eq_zero_of_isBoundary {c : Char} {bytes : List UInt8} {offset : Nat}
    (h : isBoundary (String.utf8EncodeChar c ++ bytes) offset = true)
    (hlt : offset < (String.utf8EncodeChar c).length) : offset = 0 := by
  obtain ⟨first, others, hc, -, hothers⟩ := exists_utf8EncodeChar_eq c
  rw [hc] at h hlt
  cases offset with
  | zero => rfl
  | succ k =>
    have hk : k < others.length := Nat.lt_of_succ_lt_succ hlt
    have hbyte : (first :: others ++ bytes)[k + 1]? = some others[k] := by
      rw [List.cons_append, List.getElem?_cons_succ, List.getElem?_append_left hk,
        List.getElem?_eq_getElem hk]
    unfold isBoundary at h
    rw [hbyte] at h
    simp [hothers others[k] (List.getElem_mem hk)] at h

/-- A text may be cut between its characters, and only there. -/
theorem isBoundary_encode_iff {text : List Char} {offset : Nat} :
    isBoundary (encode text) offset = true ↔
      ∃ before after, text = before ++ after ∧ offset = size before := by
  constructor
  · intro h
    induction text generalizing offset with
    | nil =>
      have hzero : offset = 0 := by simpa [isBoundary, encode] using h
      exact ⟨[], [], rfl, hzero⟩
    | cons c text ih =>
      rw [encode_cons] at h
      by_cases hlt : offset < (String.utf8EncodeChar c).length
      · exact ⟨[], c :: text, rfl, eq_zero_of_isBoundary h hlt⟩
      · obtain ⟨k, rfl⟩ := Nat.exists_eq_add_of_le (Nat.le_of_not_lt hlt)
        rw [isBoundary_append] at h
        obtain ⟨before, after, rfl, rfl⟩ := ih h
        refine ⟨c :: before, after, rfl, ?_⟩
        unfold size
        rw [encode_cons, List.length_append]
  · rintro ⟨before, after, rfl, rfl⟩
    have h := isBoundary_append (encode before) (encode after) 0
    rw [Nat.add_zero, isBoundary_zero, ← encode_append] at h
    exact h

/-! ### The pieces -/

theorem isBoundary_size (before after : List Char) :
    isBoundary (encode (before ++ after)) (size before) = true :=
  isBoundary_encode_iff.mpr ⟨before, after, rfl, rfl⟩

theorem before?_append (before after : List Char) :
    before? (before ++ after) (size before) = some before := by
  unfold before?
  rw [if_pos (isBoundary_size before after), size, encode_append, List.take_left, decode?_encode]

theorem after?_append (before after : List Char) :
    after? (before ++ after) (size before) = some after := by
  unfold after?
  rw [if_pos (isBoundary_size before after), size, encode_append, List.drop_left, decode?_encode]

theorem between?_append (before middle after : List Char) :
    between? (before ++ middle ++ after) (size before) (size before + size middle) =
      some middle := by
  have hfirst : isBoundary (encode (before ++ middle ++ after)) (size before) = true := by
    rw [List.append_assoc]
    exact isBoundary_size before (middle ++ after)
  have hlast : isBoundary (encode (before ++ middle ++ after)) (size before + size middle) =
      true := by
    rw [← size_append]
    exact isBoundary_size (before ++ middle) after
  have hbytes : ((encode (before ++ middle ++ after)).take (size before + size middle)).drop
      (size before) = encode middle := by
    rw [← size_append, size, size, encode_append (before ++ middle), List.take_left,
      encode_append, List.drop_left]
  rw [between?, hfirst, hlast, hbytes, decode?_encode]
  simp

theorem column?_append (before after : List Char) :
    column? (before ++ after) (size before) = some (before.length + 1) := by
  rw [column?, before?_append, Option.map_some]

/-- A letter with an accent takes two bytes, and the text may not be cut between them. -/
example : column? "é;".toList 1 = none ∧ column? "é;".toList 2 = some 2 := by decide

end FlexGate.Text.Utf8
