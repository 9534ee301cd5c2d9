import FlexGate.Number.Decimal
import FlexGate.Proofs.Analysis.Walks
import FlexGate.Proofs.Pattern.Scan

/-!
# Divisors that are zero

A division by zero is found where a slash is followed by a zero, with blanks between and no word
character behind the zero, and a remainder likewise. On each line the first such operator is found
(`zeroDivisor?_eq`), and a zero is all that is looked at. So a finding is wrong in two ways: the
slash may be the second one of a comment marker, and the zero may be the whole part of a number such
as `0.5`. Nothing else makes one wrong (`dividesByZeroAt_iff`), and the findings on a program are
right when neither is the case on any of its lines (`zero_findings_sound_iff`).
-/

set_option autoImplicit false
set_option relaxedAutoImplicit false

namespace FlexGate

/-! ### Numbers as they are written -/

namespace Decimal

/-- The decimals at the start of a text: a point and digits, without the point. -/
def decimals (text : List Char) : List Char :=
  if text.head? = some '.' then text.tail.takeWhile isDigit else []

/-- The number at the start of a text: digits and, if they follow, decimals. -/
def leading (text : List Char) : Decimal :=
  let whole := text.takeWhile isDigit
  let fraction := decimals (text.dropWhile isDigit)
  ⟨ofDigits (whole ++ fraction), -fraction.length⟩

/-- A text starts with a number, and the number is zero. -/
def LeadsWithZero (text : List Char) : Prop :=
  text.head?.any isDigit = true ∧ (leading text).digits = 0

theorem isDigit_iff {c : Char} : isDigit c = true ↔ '0' ≤ c ∧ c ≤ '9' := by
  rw [isDigit, Bool.and_eq_true, decide_eq_true_iff, decide_eq_true_iff]

theorem isWord_of_isDigit {c : Char} (h : isDigit c = true) : Text.isWord c = true := by
  obtain ⟨hlow, hhigh⟩ := isDigit_iff.mp h
  have hascii : c.toNat < 128 := lt_of_le_of_lt hhigh (by decide)
  rw [Text.isWord, if_pos hascii, Text.isAsciiWord]
  simp [hlow, hhigh]

/-- The digit that adds nothing is zero. -/
theorem digitValue_eq_zero_iff {c : Char} (h : isDigit c = true) : digitValue c = 0 ↔ c = '0' := by
  obtain ⟨hlow, -⟩ := isDigit_iff.mp h
  have hle : '0'.toNat ≤ c.toNat := hlow
  constructor
  · intro hvalue
    have hge : c.toNat ≤ '0'.toNat := Nat.le_of_sub_eq_zero hvalue
    exact Char.ext (UInt32.toNat_inj.mp (Nat.le_antisymm hge hle))
  · rintro rfl
    rfl

theorem ofDigits_eq_zero_iff {digits : List Char} :
    ofDigits digits = 0 ↔ ∀ d ∈ digits, digitValue d = 0 := by
  have hfold (n : Nat) : digits.foldl (fun n c ↦ n * 10 + digitValue c) n = 0 ↔
      n = 0 ∧ ∀ d ∈ digits, digitValue d = 0 := by
    induction digits generalizing n with
    | nil => simp
    | cons d digits ih =>
      have hstep : n * 10 + digitValue d = 0 ↔ n = 0 ∧ digitValue d = 0 := by omega
      rw [List.foldl_cons, ih, List.forall_mem_cons, hstep, and_assoc]
  unfold ofDigits
  rw [hfold]
  simp

theorem isDigit_of_mem_decimals {text : List Char} {d : Char} (h : d ∈ decimals text) :
    isDigit d = true := by
  unfold decimals at h
  split_ifs at h
  · exact List.mem_takeWhile_imp h
  · exact absurd h List.not_mem_nil

/-- A number that starts with a zero and goes on with no word character is zero when its decimals
are. -/
theorem leadsWithZero_cons_iff {rest : List Char} (hrest : Cursor.leadsWithWord rest = false) :
    LeadsWithZero ('0' :: rest) ↔ ∀ d ∈ decimals rest, d = '0' := by
  have hzero : isDigit '0' = true := by decide
  have hwhole : rest.takeWhile isDigit = [] ∧ rest.dropWhile isDigit = rest := by
    cases rest with
    | nil => exact ⟨rfl, rfl⟩
    | cons c rest =>
      have hc : ¬ isDigit c = true := by
        intro hdigit
        have hword : Text.isWord c = true := isWord_of_isDigit hdigit
        rw [Cursor.leadsWithWord, hword] at hrest
        cases hrest
      exact ⟨List.takeWhile_cons_of_neg hc, List.dropWhile_cons_of_neg hc⟩
  have hdigits : (leading ('0' :: rest)).digits = ofDigits ('0' :: decimals rest) := by
    rw [leading, List.takeWhile_cons_of_pos hzero, List.dropWhile_cons_of_pos hzero, hwhole.1,
      hwhole.2]
    rfl
  rw [LeadsWithZero, hdigits, ofDigits_eq_zero_iff, List.forall_mem_cons]
  constructor
  · rintro ⟨-, -, hall⟩ d hd
    exact (digitValue_eq_zero_iff (isDigit_of_mem_decimals hd)).mp (hall d hd)
  · intro hall
    refine ⟨hzero, rfl, fun d hd ↦ ?_⟩
    exact (digitValue_eq_zero_iff (isDigit_of_mem_decimals hd)).mpr (hall d hd)

end Decimal

/-! ### The first operator that is found -/

namespace Text

/-- The text before and behind the first of an operator with a zero behind it. -/
def firstZero (operator : Char) : List Char → Option (List Char × List Char)
  | [] => none
  | c :: text =>
    if c == operator && startsZero text then some ([], text)
    else (firstZero operator text).map fun parts ↦ (c :: parts.1, parts.2)

theorem of_firstZero_eq_some {operator : Char} {text before after : List Char}
    (h : firstZero operator text = some (before, after)) :
    text = before ++ operator :: after ∧ startsZero after = true := by
  induction text generalizing before with
  | nil => cases h
  | cons c text ih =>
    rw [firstZero] at h
    split_ifs at h with hfirst
    · obtain ⟨hoperator, hzero⟩ := Bool.and_eq_true_iff.mp hfirst
      obtain ⟨rfl, rfl⟩ := Prod.mk.inj (Option.some.inj h)
      exact ⟨by rw [eq_of_beq hoperator, List.nil_append], hzero⟩
    · obtain ⟨parts, hparts, heq⟩ := Option.map_eq_some_iff.mp h
      obtain ⟨rfl, rfl⟩ := Prod.mk.inj heq
      obtain ⟨htext, hzero⟩ := ih hparts
      exact ⟨by rw [List.cons_append, ← htext], hzero⟩

end Text

namespace Pattern

open Shape

/-- A search for an operator that is applied to zero stops at the first one. -/
theorem map_find?_byZero {α : Type} (operator : Char) (text : List Char) (made : Nat → α) :
    (((byZero operator).find? text).map fun m ↦ made m.start) =
      (Text.firstZero operator text).map fun parts ↦ made parts.1.length := by
  have hfrom (behind ahead : List Char) :
      (((byZero operator).findFrom behind ahead).map fun m ↦ made m.start) =
        (Text.firstZero operator ahead).map fun parts ↦
          made (behind.length + parts.1.length) := by
    induction ahead generalizing behind with
    | nil => rfl
    | cons x ahead ih =>
      have hmatch : ((byZero operator).matchAt ⟨behind, x :: ahead⟩).isSome = true ↔
          (x == operator && Text.startsZero ahead) = true := by
        rw [matchAt_isSome_iff, exists_mem_ends_byZero, Bool.and_eq_true]
      rw [findFrom, Text.firstZero]
      cases hm : (byZero operator).matchAt ⟨behind, x :: ahead⟩ with
      | none =>
        have hnot : ¬ (x == operator && Text.startsZero ahead) = true := by
          rw [← hmatch, hm]
          exact Bool.false_ne_true
        have hlength (parts : List Char × List Char) :
            (x :: behind).length + parts.1.length = behind.length + (x :: parts.1).length := by
          simp only [List.length_cons]
          omega
        rw [if_neg hnot, Option.map_map]
        refine (ih (x :: behind)).trans (congrArg (Option.map · _) (funext fun parts ↦ ?_))
        exact congrArg made (hlength parts)
      | some m =>
        rw [if_pos (hmatch.mp (by rw [hm]; rfl))]
        exact congrArg some (congrArg made (congrArg Cursor.position (span_of_matchAt hm).1))
  refine (hfrom [] text).trans (congrArg (Option.map · _) (funext fun parts ↦ ?_))
  exact congrArg made (Nat.zero_add parts.1.length)

end Pattern

namespace Analysis

/-! ### What is found on a line -/

/-- The division by zero on a line stands at its first slash that a zero follows. -/
theorem zeroDivisor?_eq (n : Nat) (line : List Char) :
    zeroDivisor? n line = (Text.firstZero '/' line).map fun parts ↦
      ⟨.zeroDivisor, n, some (parts.1.length + 1)⟩ :=
  Pattern.map_find?_byZero '/' line fun start ↦ (⟨.zeroDivisor, n, some (start + 1)⟩ : Finding)

/-- The remainder by zero on a line stands at its first percent sign that a zero follows. -/
theorem zeroModulus?_eq (n : Nat) (line : List Char) :
    zeroModulus? n line = (Text.firstZero '%' line).map fun parts ↦
      ⟨.zeroModulus, n, some (parts.1.length + 1)⟩ :=
  Pattern.map_find?_byZero '%' line fun start ↦ (⟨.zeroModulus, n, some (start + 1)⟩ : Finding)

theorem kind_of_loopFinding? {n : Nat} {line : List Char} {ahead : List (List Char)} {f : Finding}
    (h : loopFinding? n line ahead = some f) :
    f.kind = .criticalLoopBound ∨ f.kind = .potentialIndex := by
  obtain ⟨header, -, ⟨-, rfl⟩ | ⟨-, -, -, rfl⟩⟩ := loopFinding?_eq_some_iff.mp h
  · exact .inl rfl
  · exact .inr rfl

theorem mem_safetyOnLine_divisionByZero_iff {n : Nat} {line : List Char} {ahead : List (List Char)}
    {f : Finding} : f ∈ safetyOnLine n line ahead ∧ f.kind = .divisionByZero ↔
      zeroDivisor? n line = some f := by
  rw [mem_safetyOnLine]
  constructor
  · rintro ⟨hf | hf | hf, hkind⟩
    · rcases kind_of_loopFinding? hf with h | h <;> rw [h] at hkind <;> cases hkind
    · exact hf
    · obtain ⟨m, -, rfl⟩ := zeroModulus?_eq_some_iff.mp hf
      cases hkind
  · intro hf
    refine ⟨.inr (.inl hf), ?_⟩
    obtain ⟨m, -, rfl⟩ := zeroDivisor?_eq_some_iff.mp hf
    rfl

theorem mem_safetyOnLine_moduloByZero_iff {n : Nat} {line : List Char} {ahead : List (List Char)}
    {f : Finding} : f ∈ safetyOnLine n line ahead ∧ f.kind = .moduloByZero ↔
      zeroModulus? n line = some f := by
  rw [mem_safetyOnLine]
  constructor
  · rintro ⟨hf | hf | hf, hkind⟩
    · rcases kind_of_loopFinding? hf with h | h <;> rw [h] at hkind <;> cases hkind
    · obtain ⟨m, -, rfl⟩ := zeroDivisor?_eq_some_iff.mp hf
      cases hkind
    · exact hf
  · intro hf
    refine ⟨.inr (.inr hf), ?_⟩
    obtain ⟨m, -, rfl⟩ := zeroModulus?_eq_some_iff.mp hf
    rfl

section Findings

variable {options : AnalysisOptions} {lines : List (List Char)} {f : Finding}

/-- When a line gives a finding of some kind for its first operator that a zero follows, the findings
of that kind are those of the lines. -/
theorem mem_findings_of_firstZero {kind : FindingKind} {defect : Defect} {operator : Char}
    (hcheck : kind.check = .safety)
    (honLine : ∀ n line ahead, ∀ f : Finding, f ∈ safetyOnLine n line ahead ∧ f.kind = kind ↔
      ((Text.firstZero operator line).map fun parts ↦
        (⟨defect, n, some (parts.1.length + 1)⟩ : Finding)) = some f) :
    f ∈ findings options lines ∧ f.kind = kind ↔ ∃ i line before after,
      lines[i]? = some line ∧ Text.firstZero operator line = some (before, after) ∧
        f = ⟨defect, i + 1, some (before.length + 1)⟩ := by
  constructor
  · rintro ⟨hf, rfl⟩
    obtain ⟨i, line, hi, hf⟩ := (mem_findings_of_safety hcheck).mp hf
    obtain ⟨⟨before, after⟩, hparts, rfl⟩ :=
      Option.map_eq_some_iff.mp ((honLine _ _ _ _).mp ⟨hf, rfl⟩)
    exact ⟨i, line, before, after, hi, hparts, rfl⟩
  · rintro ⟨i, line, before, after, hi, hparts, rfl⟩
    obtain ⟨hf, rfl⟩ := (honLine (i + 1) line ((lines.drop (i + 1)).take options.lookahead) _).mpr
      (Option.map_eq_some_iff.mpr ⟨(before, after), hparts, rfl⟩)
    exact ⟨(mem_findings_of_safety hcheck).mpr ⟨i, line, hi, hf⟩, rfl⟩

/-- The divisions by zero that are found, line by line. -/
theorem mem_divisionByZero_iff : f ∈ findings options lines ∧ f.kind = .divisionByZero ↔
    ∃ i line before after, lines[i]? = some line ∧
      Text.firstZero '/' line = some (before, after) ∧
      f = ⟨.zeroDivisor, i + 1, some (before.length + 1)⟩ := by
  refine mem_findings_of_firstZero rfl fun n line ahead f ↦ ?_
  rw [mem_safetyOnLine_divisionByZero_iff, zeroDivisor?_eq]

/-- The remainders by zero that are found, line by line. -/
theorem mem_moduloByZero_iff : f ∈ findings options lines ∧ f.kind = .moduloByZero ↔
    ∃ i line before after, lines[i]? = some line ∧
      Text.firstZero '%' line = some (before, after) ∧
      f = ⟨.zeroModulus, i + 1, some (before.length + 1)⟩ := by
  refine mem_findings_of_firstZero rfl fun n line ahead f ↦ ?_
  rw [mem_safetyOnLine_moduloByZero_iff, zeroModulus?_eq]

end Findings

/-! ### What is right about a finding -/

/-- An operator stands at a column of a line that divides by a number that is zero, with blanks
before the number. A slash is an operator if no other slash touches it. -/
def DividesByZeroAt (operator : Char) (line : List Char) (column : Nat) : Prop :=
  ∃ before after, line = before ++ operator :: after ∧ column = before.length + 1 ∧
    (operator = '/' → before.getLast? ≠ some '/' ∧ after.head? ≠ some '/') ∧
    Decimal.LeadsWithZero (after.dropWhile Text.isBlank)

/-- A slash that a zero follows is no comment marker with the character behind it. -/
theorem head?_ne_slash_of_startsZero {text : List Char} (h : Text.startsZero text = true) :
    text.head? ≠ some '/' := by
  obtain ⟨blanks, rest, rfl, hblanks, -⟩ := Text.startsZero_iff.mp h
  cases blanks with
  | nil => simp
  | cons b blanks =>
    have hb : Text.isBlank b = true := hblanks b List.mem_cons_self
    rintro ⟨⟩
    exact absurd hb (by decide)

/-- The first operator that a zero follows divides by zero, unless it is a slash behind another one
or the number goes on with decimals that are not zero. -/
theorem dividesByZeroAt_iff {operator : Char} {line before after : List Char}
    (h : Text.firstZero operator line = some (before, after)) :
    DividesByZeroAt operator line (before.length + 1) ↔
      (operator = '/' → before.getLast? ≠ some '/') ∧
        ∀ d ∈ Decimal.decimals (after.dropWhile Text.isBlank).tail, d = '0' := by
  obtain ⟨hline, hzero⟩ := Text.of_firstZero_eq_some h
  obtain ⟨blanks, rest, hafter, hblanks, hrest⟩ := Text.startsZero_iff.mp hzero
  have hdrop : after.dropWhile Text.isBlank = '0' :: rest :=
    (Text.dropWhile_isBlank_eq_cons_iff (by decide)).mpr ⟨blanks, hafter, hblanks⟩
  rw [hdrop, List.tail_cons, ← Decimal.leadsWithZero_cons_iff hrest]
  constructor
  · rintro ⟨before', after', hline', hlength, hslash, hnumber⟩
    obtain ⟨rfl, htail⟩ := List.append_inj (hline.symm.trans hline') (Nat.succ.inj hlength)
    obtain ⟨-, rfl⟩ := List.cons.inj htail
    rw [hdrop] at hnumber
    exact ⟨fun hoperator ↦ (hslash hoperator).1, hnumber⟩
  · rintro ⟨hslash, hnumber⟩
    refine ⟨before, after, hline, rfl, fun hoperator ↦ ?_, hdrop.symm ▸ hnumber⟩
    exact ⟨hslash hoperator, head?_ne_slash_of_startsZero hzero⟩

end Analysis

open Analysis

/-! ### Programs -/

/-- Each division and each remainder by zero that is found in a program is one. -/
structure ZeroFindingsSound (options : AnalysisOptions) (s : String) : Prop where
  divisions : ∀ f ∈ (Report.ofSource options s).findings, f.kind = .divisionByZero →
    ∃ i line column, f.line = i + 1 ∧ (Text.lines s.toList)[i]? = some line ∧
      f.column = some column ∧ DividesByZeroAt '/' line column
  moduli : ∀ f ∈ (Report.ofSource options s).findings, f.kind = .moduloByZero →
    ∃ i line column, f.line = i + 1 ∧ (Text.lines s.toList)[i]? = some line ∧
      f.column = some column ∧ DividesByZeroAt '%' line column

/-- The findings of a kind are right when they are right on every line, at its first operator that a
zero follows. -/
theorem forall_findings_iff (options : AnalysisOptions) (s : String) (operator : Char)
    {kind : FindingKind} {defect : Defect}
    (hmem : ∀ f, f ∈ findings options (Text.lines s.toList) ∧ f.kind = kind ↔
      ∃ i line before after, (Text.lines s.toList)[i]? = some line ∧
        Text.firstZero operator line = some (before, after) ∧
        f = ⟨defect, i + 1, some (before.length + 1)⟩) :
    (∀ f ∈ findings options (Text.lines s.toList), f.kind = kind →
      ∃ i line column, f.line = i + 1 ∧ (Text.lines s.toList)[i]? = some line ∧
        f.column = some column ∧ DividesByZeroAt operator line column) ↔
      ∀ line ∈ Text.lines s.toList, ∀ before after,
        Text.firstZero operator line = some (before, after) →
        (operator = '/' → before.getLast? ≠ some '/') ∧
          ∀ d ∈ Decimal.decimals (after.dropWhile Text.isBlank).tail, d = '0' := by
  constructor
  · intro hright line hline before after hparts
    obtain ⟨i, hi⟩ := List.getElem?_of_mem hline
    obtain ⟨hf, hkind⟩ := (hmem _).mpr ⟨i, line, before, after, hi, hparts, rfl⟩
    obtain ⟨j, line', column, hj, hline', hcolumn, hdivides⟩ := hright _ hf hkind
    obtain rfl : i = j := Nat.succ.inj hj
    obtain rfl : line = line' := Option.some.inj (hi.symm.trans hline')
    obtain rfl : before.length + 1 = column := Option.some.inj hcolumn
    exact (dividesByZeroAt_iff hparts).mp hdivides
  · intro hright f hf hkind
    obtain ⟨i, line, before, after, hi, hparts, rfl⟩ := (hmem f).mp ⟨hf, hkind⟩
    refine ⟨i, line, before.length + 1, rfl, hi, rfl, (dividesByZeroAt_iff hparts).mpr ?_⟩
    exact hright line (List.mem_of_getElem? hi) before after hparts

/-- Which divisions and remainders by zero are found, and when all of them are right: when on no
line the first slash that a zero follows stands behind another slash, and the zero behind the first
slash and the first percent sign that one follows has no decimals but zeros. -/
theorem zero_findings_sound_iff (options : AnalysisOptions) (s : String) :
    (∀ f, f ∈ (Report.ofSource options s).findings ∧ f.kind = .divisionByZero ↔
      ∃ i line before after, (Text.lines s.toList)[i]? = some line ∧
        Text.firstZero '/' line = some (before, after) ∧
        f = ⟨.zeroDivisor, i + 1, some (before.length + 1)⟩) ∧
    (∀ f, f ∈ (Report.ofSource options s).findings ∧ f.kind = .moduloByZero ↔
      ∃ i line before after, (Text.lines s.toList)[i]? = some line ∧
        Text.firstZero '%' line = some (before, after) ∧
        f = ⟨.zeroModulus, i + 1, some (before.length + 1)⟩) ∧
    (ZeroFindingsSound options s ↔ ∀ line ∈ Text.lines s.toList,
      (∀ before after, Text.firstZero '/' line = some (before, after) →
        before.getLast? ≠ some '/' ∧
          ∀ d ∈ Decimal.decimals (after.dropWhile Text.isBlank).tail, d = '0') ∧
      ∀ before after, Text.firstZero '%' line = some (before, after) →
        ∀ d ∈ Decimal.decimals (after.dropWhile Text.isBlank).tail, d = '0') := by
  have hdivisions := forall_findings_iff options s '/' fun f ↦ mem_divisionByZero_iff
  have hmoduli := forall_findings_iff options s '%' fun f ↦ mem_moduloByZero_iff
  refine ⟨fun f ↦ mem_divisionByZero_iff, fun f ↦ mem_moduloByZero_iff, ?_⟩
  constructor
  · intro hsound line hline
    refine ⟨fun before after hparts ↦ ?_, fun before after hparts ↦ ?_⟩
    · obtain ⟨hslash, hzeros⟩ := hdivisions.mp hsound.divisions line hline before after hparts
      exact ⟨hslash rfl, hzeros⟩
    · exact (hmoduli.mp hsound.moduli line hline before after hparts).2
  · intro hlines
    refine ⟨hdivisions.mpr fun line hline before after hparts ↦ ?_,
      hmoduli.mpr fun line hline before after hparts ↦ ?_⟩
    · obtain ⟨hslash, hzeros⟩ := (hlines line hline).1 before after hparts
      exact ⟨fun _ ↦ hslash, hzeros⟩
    · refine ⟨fun hoperator ↦ ?_, (hlines line hline).2 before after hparts⟩
      exact absurd hoperator (by decide)

/-- A division by a half, and a comment that starts with a zero. -/
def halfAndComment : String := "rakm x = 10 / 0.5
// 0 left"

/-- Both lines are reported, and neither divides by zero. -/
theorem halfAndComment_not_sound :
    (Report.ofSource {} halfAndComment).findings =
      [⟨.zeroDivisor, 1, some 13⟩, ⟨.zeroDivisor, 2, some 2⟩] ∧
    ¬ DividesByZeroAt '/' "rakm x = 10 / 0.5".toList 13 ∧
    ¬ DividesByZeroAt '/' "// 0 left".toList 2 ∧
    ¬ ZeroFindingsSound {} halfAndComment := by
  have hfindings : (Report.ofSource {} halfAndComment).findings =
      [⟨.zeroDivisor, 1, some 13⟩, ⟨.zeroDivisor, 2, some 2⟩] := by
    decide
  have hhalf : ¬ DividesByZeroAt '/' "rakm x = 10 / 0.5".toList 13 := by
    have hparts : Text.firstZero '/' "rakm x = 10 / 0.5".toList =
        some ("rakm x = 10 ".toList, " 0.5".toList) := by
      decide
    intro hdivides
    obtain ⟨-, hzeros⟩ := (dividesByZeroAt_iff hparts).mp hdivides
    exact absurd (hzeros '5' (by decide)) (by decide)
  have hcomment : ¬ DividesByZeroAt '/' "// 0 left".toList 2 := by
    have hparts : Text.firstZero '/' "// 0 left".toList = some (['/'], " 0 left".toList) := by
      decide
    intro hdivides
    exact ((dividesByZeroAt_iff hparts).mp hdivides).1 rfl rfl
  refine ⟨hfindings, hhalf, hcomment, fun hsound ↦ ?_⟩
  obtain ⟨i, line, column, hi, hline, hcolumn, hdivides⟩ :=
    hsound.divisions ⟨.zeroDivisor, 1, some 13⟩ (by rw [hfindings]; exact .head _) rfl
  obtain rfl : 0 = i := Nat.succ.inj hi
  obtain rfl : 13 = column := Option.some.inj hcolumn
  obtain rfl : "rakm x = 10 / 0.5".toList = line := Option.some.inj hline
  exact hhalf hdivides

end FlexGate
