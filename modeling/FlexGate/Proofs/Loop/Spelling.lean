import FlexGate.Proofs.Loop.Written

/-!
# Spellings of an adjustment

Whether a bound is adjusted is a matter of its text: a sign and a one stand in it somewhere, with
nothing or one space in between. A parenthesis is no part of that, so a bound that is a call and
some text behind it is adjusted when the argument is or when that text is
(`isAdjusted_call_append`).

So an argument that holds an adjustment of its own, as an index from the end does, makes the bound
count as adjusted (`isCritical_call_append`). And an adjustment behind a call with anything but
nothing or one space between its sign and its one does not count as one (`isAdjusted_spelled_iff`):
the loop is mended, and then one is subtracted twice (`mended_loopLine`).
-/

set_option autoImplicit false
set_option relaxedAutoImplicit false

namespace FlexGate

namespace LoopBound

open Pattern Shape

/-! ### Where an adjustment can stand -/

theorem isAdjusted_append_cons {c : Char} (hc : ∀ a ∈ adjustments, c ∉ a.toList)
    (first last : List Char) :
    isAdjusted (first ++ c :: last) = (isAdjusted first || isAdjusted last) := by
  have hlong : c ∉ "- 1".toList := hc _ (by decide)
  have hshort : c ∉ "-1".toList := hc _ (by decide)
  simp only [isAdjusted, adjustments, List.any_cons, List.any_nil, Bool.or_false,
    Text.hasInfix_append_cons hlong, Text.hasInfix_append_cons hshort]
  ac_rfl

theorem isAdjusted_append_of_not_mem {run : List Char} (h : '-' ∉ run) (text : List Char) :
    isAdjusted (run ++ text) = isAdjusted text := by
  have hinfix (part : List Char) :
      Text.hasInfix ('-' :: part) (run ++ text) = Text.hasInfix ('-' :: part) text :=
    Text.hasInfix_append_of_not_mem h text
  have hlong : "- 1".toList = '-' :: " 1".toList := rfl
  have hshort : "-1".toList = '-' :: "1".toList := rfl
  simp only [isAdjusted, adjustments, List.any_cons, List.any_nil, hlong, hshort, hinfix]

theorem isAdjusted_of_not_mem {text : List Char} (h : '-' ∉ text) : isAdjusted text = false := by
  have happend := isAdjusted_append_of_not_mem h []
  rw [List.append_nil] at happend
  rw [happend]
  rfl

section Spelled

/-- A sign and a one, with some text before each. -/
def spelled (before between : List Char) : List Char := before ++ '-' :: (between ++ ['1'])

variable {before between : List Char} (hbefore : ∀ c ∈ before, c = ' ' ∨ c = '\t')
  (hbetween : ∀ c ∈ between, c = ' ' ∨ c = '\t')

include hbefore hbetween

theorem not_mem_spelled {c : Char} (hc : c ∉ [' ', '\t', '-', '1']) :
    c ∉ spelled before between := by
  intro hmem
  have hcases : c ∈ before ∨ c = '-' ∨ c ∈ between ∨ c = '1' := by simpa [spelled] using hmem
  refine hc ?_
  rcases hcases with hblank | rfl | hblank | rfl
  · rcases hbefore c hblank with rfl | rfl <;> decide
  · decide
  · rcases hbetween c hblank with rfl | rfl <;> decide
  · decide

theorem plain_spelled : Text.Plain (spelled before between) where
  not_open := not_mem_spelled hbefore hbetween (by decide)
  not_close := not_mem_spelled hbefore hbetween (by decide)
  not_brace := not_mem_spelled hbefore hbetween (by decide)

/-- It is an adjustment when nothing or one space stands in between. -/
theorem isAdjusted_spelled_iff :
    isAdjusted (spelled before between) = true ↔ between = [] ∨ between = [' '] := by
  have hsign (run : List Char) (hrun : ∀ c ∈ run, c = ' ' ∨ c = '\t') : '-' ∉ run :=
    fun hmem ↦ absurd (hrun _ hmem) (by decide)
  -- Only the sign itself can start a marker.
  have hlater (part : List Char) : Text.hasInfix ('-' :: part) (between ++ ['1']) = false := by
    have hnone : '-' ∉ between ++ ['1'] := by simpa using hsign between hbetween
    rw [Bool.eq_false_iff, ne_eq, Text.hasInfix_iff]
    exact fun hpart ↦ hnone (hpart.subset List.mem_cons_self)
  have hhere (part : List Char) :
      Text.hasInfix ('-' :: part) ('-' :: (between ++ ['1'])) =
        part.isPrefixOf (between ++ ['1']) := by
    rw [Text.hasInfix, hlater, Bool.or_false, List.isPrefixOf, beq_self_eq_true, Bool.true_and]
  have hone (run : List Char) (hrun : ∀ c ∈ run, c = ' ' ∨ c = '\t') :
      ['1'].isPrefixOf (run ++ ['1']) = true ↔ run = [] := by
    cases run with
    | nil => simp
    | cons c run =>
      have hc : '1' ≠ c := by
        rintro rfl
        exact absurd (hrun '1' List.mem_cons_self) (by decide)
      simp [List.isPrefixOf, hc]
  have hspace : [' ', '1'].isPrefixOf (between ++ ['1']) = true ↔ between = [' '] := by
    cases between with
    | nil => simp [List.isPrefixOf]
    | cons c run =>
      have hrest := hone run fun d hd ↦ hbetween d (List.mem_cons_of_mem c hd)
      rw [List.cons_append, List.isPrefixOf, Bool.and_eq_true, beq_iff_eq, hrest, List.cons.injEq]
      exact and_congr_left fun _ ↦ eq_comm
  have hlong : "- 1".toList = '-' :: [' ', '1'] := rfl
  have hshort : "-1".toList = '-' :: ['1'] := rfl
  rw [spelled, isAdjusted_append_of_not_mem (hsign before hbefore), isAdjusted, adjustments]
  simp only [List.any_cons, List.any_nil, Bool.or_false, hlong, hshort, hhere, Bool.or_eq_true,
    hspace, hone between hbetween]
  exact or_comm

omit hbefore hbetween

theorem getLast?_spelled : ∀ c ∈ (spelled before between).getLast?, Text.isBlank c = false := by
  have hsplit : spelled before between = (before ++ '-' :: between) ++ ['1'] := by simp [spelled]
  rw [hsplit, List.getLast?_concat]
  exact LoopHeader.forall_mem_head?_cons (by decide) []

end Spelled

/-! ### A call and what stands behind it -/

section Call

variable {name : String} {argument : List Char}

theorem callsLength_call_append (hname : name ∈ builtins) (hne : argument ≠ [])
    (hclose : ')' ∉ argument) (tail : List Char) :
    callsLength (call name [] argument ++ tail) = true := by
  have hnone : ∀ x ∈ ([] : List Char), Text.isBlank x = true := by simp
  exact @callsLength_append_call [] rfl _ hname _ _ hnone hne hclose tail

/-- Without an argument nothing is called. -/
theorem callsLength_call_nil_append (hname : name ∈ builtins) {tail : List Char}
    (htail : '(' ∉ tail) : callsLength (call name [] [] ++ tail) = false := by
  rw [Bool.eq_false_iff]
  intro hcalls
  obtain ⟨lead, name', blanks, argument, rest, hbound, hne, hclose⟩ :=
    exists_call_of_callsLength hcalls
  have hopen : '(' ∉ name.toList := by
    have hnames : ∀ n ∈ builtins, '(' ∉ n.toList := by decide
    exact hnames name hname
  have hsplit : name.toList ++ '(' :: (')' :: tail) =
      (lead ++ name'.toList ++ blanks) ++ '(' :: (argument ++ ')' :: rest) := by
    simpa [call] using hbound
  have htail' : '(' ∉ ')' :: tail := by simpa using htail
  obtain ⟨-, hargument⟩ := Text.eq_of_append_cons_of_not_mem hopen htail' hsplit
  obtain ⟨x, argument, rfl⟩ := List.exists_cons_of_ne_nil hne
  exact hclose ((List.cons.inj hargument).1 ▸ List.mem_cons_self)

/-- A call is adjusted by its argument or by what stands behind it. -/
theorem isAdjusted_call_append (hname : name ∈ builtins) (argument tail : List Char) :
    isAdjusted (call name [] argument ++ tail) = (isAdjusted argument || isAdjusted tail) := by
  have hsplit : call name [] argument ++ tail =
      name.toList ++ '(' :: (argument ++ ')' :: tail) := by
    simp [call]
  have hplain : isAdjusted name.toList = false := by
    have hnames : ∀ n ∈ builtins, '-' ∉ n.toList := by decide
    exact isAdjusted_of_not_mem (hnames name hname)
  rw [hsplit, isAdjusted_append_cons (by decide), isAdjusted_append_cons (by decide), hplain,
    Bool.false_or]

theorem isCritical_call_append (hname : name ∈ builtins) (hne : argument ≠ [])
    (hclose : ')' ∉ argument) (tail : List Char) :
    isCritical (call name [] argument ++ tail) = !(isAdjusted argument || isAdjusted tail) := by
  rw [isCritical, callsLength_call_append hname hne hclose, isAdjusted_call_append hname,
    Bool.true_and]

theorem mem_callEnds_call_append (hname : name ∈ builtins) (hne : argument ≠ [])
    (hclose : ')' ∉ argument) {tail : List Char} (htail : ')' ∉ tail) {k : Nat} :
    k ∈ callEnds (call name [] argument ++ tail) ↔ k = (call name [] argument).length := by
  have hends : ∀ k ∈ callEnds (call name [] argument ++ tail),
      k = (call name [] argument).length := by
    -- A call ends with a closing parenthesis, and there is only one.
    intro k hk
    obtain ⟨before, after, hbound, rfl⟩ := exists_of_mem_callEnds hk
    have hinner : ')' ∉ name.toList ++ '(' :: argument := by
      have hnames : ∀ n ∈ builtins, ')' ∉ n.toList := by decide
      simpa [hclose] using hnames name hname
    have hsplit : (name.toList ++ '(' :: argument) ++ ')' :: tail = before ++ ')' :: after := by
      rw [← hbound]
      simp [call]
    obtain ⟨rfl, -⟩ := Text.eq_of_append_cons_of_not_mem hinner htail hsplit
    simp [call, Nat.add_assoc]
  constructor
  · exact hends k
  · rintro rfl
    obtain ⟨m, hm⟩ : ∃ m, m ∈ lengthCall.findAll (call name [] argument ++ tail) := by
      refine List.exists_mem_of_ne_nil _ fun hnil ↦ ?_
      have hcalls := callsLength_call_append hname hne hclose tail
      rw [callsLength, (findAll_eq_nil_iff _ _).mp hnil] at hcalls
      cases hcalls
    have hstop : m.stop ∈ callEnds (call name [] argument ++ tail) := List.mem_map_of_mem hm
    exact hends _ hstop ▸ hstop

/-- The correction of a bound with one call stands right behind the call. -/
theorem adjust_call_append (hname : name ∈ builtins) (hne : argument ≠ [])
    (hclose : ')' ∉ argument) {tail : List Char} (htail : ')' ∉ tail) :
    adjust (call name [] argument ++ tail) = call name [] argument ++ correction ++ tail := by
  have hmem (k : Nat) := @mem_callEnds_call_append _ _ hname hne hclose _ htail k
  have hle : ∀ k ∈ callEnds (call name [] argument ++ tail),
      0 + (call name [] argument).length ≤ k := by
    intro k hk
    rw [(hmem k).mp hk, Nat.zero_add]
  have hrest : insertBehind correction (callEnds (call name [] argument ++ tail))
      (call name [] argument).length tail = tail := by
    refine insertBehind_eq_self fun k hk hlt ↦ ?_
    rw [(hmem k).mp hk] at hlt
    exact absurd hlt (Nat.lt_irrefl _)
  rw [adjust, insertAt_append hle, Nat.zero_add, insertAt_eq_append, if_pos ((hmem _).mpr rfl),
    hrest, List.append_assoc]

end Call

end LoopBound

open LoopHeader LoopBound

/-! ### A line with a call -/

/-- A line that opens a loop, with a call in the bound and some text behind the call. -/
def loopLine (name : String) (argument tail : List Char) : String :=
  String.ofList ("karr i=0 l7d ".toList ++ call name [] argument ++ tail ++ [' ', '{'])

/-- The program is neither reported nor changed. -/
structure LeftAlone (options : AnalysisOptions) (s : String) : Prop where
  unreported : (Report.ofSource options s).hasCriticalLoop = false
  unchanged : Repair.mended s = s

theorem leftAlone_iff {options : AnalysisOptions} {s : String} :
    LeftAlone options s ↔ ¬ HoldsCritical s.toList := by
  constructor
  · intro h
    exact mended_eq_self_iff_not_holdsCritical.mp h.unchanged
  · intro h
    refine ⟨?_, mended_eq_self_iff_not_holdsCritical.mpr h⟩
    rw [← Bool.not_eq_true, hasCriticalLoop_iff_holdsCritical]
    exact h

section Line

variable {name : String} {argument tail : List Char}

/-- The header on the line. -/
def CallHeader.onLine (hname : name ∈ builtins) (ha : Text.Plain argument) (ht : Text.Plain tail)
    (hlast : ∀ c ∈ tail.getLast?, Text.isBlank c = false) : CallHeader where
  first := [' ']
  second := [' ']
  name := name
  argument := argument
  tail := tail
  last := [' ']
  first_gap := Text.isGap_singleton (by decide)
  second_gap := Text.isGap_singleton (by decide)
  name_mem := hname
  argument_plain := ha
  tail_plain := ht
  tail_last := hlast
  last_blank := List.forall_mem_singleton.mpr (by decide)

theorem toList_loopLine (name : String) (argument tail : List Char) :
    (loopLine name argument tail).toList =
      preamble [' '] [' '] ++ (call name [] argument ++ tail ++ [' ']) ++ ['{'] := by
  have hlist : (loopLine name argument tail).toList =
      "karr i=0 l7d ".toList ++ call name [] argument ++ tail ++ [' ', '{'] :=
    String.toList_ofList
  have hopening : "karr i=0 l7d ".toList = preamble [' '] [' '] := by decide
  rw [hlist, hopening]
  simp only [List.append_assoc, List.singleton_append]

theorem holdsCritical_loopLine (hname : name ∈ builtins) (ha : Text.Plain argument)
    (ht : Text.Plain tail) (hlast : ∀ c ∈ tail.getLast?, Text.isBlank c = false) :
    HoldsCritical (loopLine name argument tail).toList ↔
      '\n' ∉ argument ∧ '\n' ∉ tail ∧ isCritical (call name [] argument ++ tail) = true := by
  have hfeed : '\n' ∉ name.toList := by
    have hnames : ∀ n ∈ builtins, '\n' ∉ n.toList := by decide
    exact hnames name hname
  have hiff := (CallHeader.onLine hname ha ht hlast).holdsCritical_text
  have hnot : '\n' ∉ (CallHeader.onLine hname ha ht hlast).text ↔
      '\n' ∉ argument ∧ '\n' ∉ tail := by
    simp [CallHeader.onLine, CallHeader.text, CallHeader.bound, preamble, call, hfeed]
  rw [toList_loopLine, ← and_assoc, ← hnot]
  exact hiff

/-- Where a line is mended, the correction comes before what stands behind the call. -/
theorem mended_loopLine (hname : name ∈ builtins) (hne : argument ≠ []) (ha : Text.Plain argument)
    (ht : Text.Plain tail) (hlast : ∀ c ∈ tail.getLast?, Text.isBlank c = false)
    (hholds : HoldsCritical (loopLine name argument tail).toList) :
    Repair.mended (loopLine name argument tail) = loopLine name argument (correction ++ tail) := by
  obtain ⟨hargument, htail, hcritical⟩ := (holdsCritical_loopLine hname ha ht hlast).mp hholds
  have hfeed : '\n' ∉ (loopLine name argument tail).toList := by
    have hnames : ∀ n ∈ builtins, '\n' ∉ n.toList := by decide
    rw [toList_loopLine]
    simp [preamble, call, hnames name hname, hargument, htail]
  have hline := (CallHeader.onLine hname ha ht hlast).line_text_append hcritical []
  have hadjust : adjust (call name [] argument ++ tail) =
      call name [] argument ++ (correction ++ tail) := by
    rw [adjust_call_append hname hne ha.not_close ht.not_close, List.append_assoc]
  have hsource : Repair.source (loopLine name argument tail).toList =
      (loopLine name argument (correction ++ tail)).toList := by
    rw [Repair.source, Text.splitLines_of_not_mem hfeed, List.map_singleton, Text.joinLines,
      List.intercalate_singleton, toList_loopLine, toList_loopLine, ← hadjust]
    exact hline
  rw [Repair.mended, hsource, String.ofList_toList]

end Line

/-! ### The argument -/

/-- Two arguments make the same bounds critical, whatever stands behind the call, exactly when both
hold an adjustment or neither does; and a loop over an argument that stands on one line is reported
exactly when the argument holds none. -/
theorem argument_decides_criticality {name : String} (hname : name ∈ builtins)
    {e₁ e₂ : List Char} (h₁ : Text.Plain e₁) (h₂ : Text.Plain e₂) (hne₁ : e₁ ≠ [])
    (hne₂ : e₂ ≠ []) :
    (∀ tail, isCritical (call name [] e₁ ++ tail) = isCritical (call name [] e₂ ++ tail) ↔
      isAdjusted tail = true ∨ isAdjusted e₁ = isAdjusted e₂) ∧
    ∀ options, (Report.ofSource options (loopLine name e₁ [])).hasCriticalLoop = true ↔
      '\n' ∉ e₁ ∧ isAdjusted e₁ = false := by
  constructor
  · intro tail
    rw [isCritical_call_append hname hne₁ h₁.not_close,
      isCritical_call_append hname hne₂ h₂.not_close]
    cases isAdjusted tail with
    | true => simp
    | false => simp
  · intro options
    rw [hasCriticalLoop_iff_holdsCritical,
      holdsCritical_loopLine hname h₁ Text.plain_nil fun _ hc ↦ absurd hc (by simp),
      isCritical_call_append hname hne₁ h₁.not_close, isAdjusted_of_not_mem List.not_mem_nil]
    simp

theorem argument_decides_criticality_product :
    isCritical (call "size" [] "2 * n".toList ++ " / 2".toList) =
      isCritical (call "size" [] "rows[i]".toList ++ " / 2".toList) ∧
    (Report.ofSource {} (loopLine "size" "2 * n".toList [])).hasCriticalLoop = true := by
  have hsize : "size" ∈ builtins := by decide
  have hproduct : Text.Plain "2 * n".toList := ⟨by decide, by decide, by decide⟩
  have hrow : Text.Plain "rows[i]".toList := ⟨by decide, by decide, by decide⟩
  have hargument := argument_decides_criticality hsize hproduct hrow (by decide) (by decide)
  exact ⟨(hargument.1 _).mpr (by decide), (hargument.2 {}).mpr (by decide)⟩

/-- An index from the end hides the loop over what stands there, and so does a line feed. -/
theorem lastOf_not_reported :
    isCritical "length(a)".toList = true ∧ isCritical "length(a[-1])".toList = false ∧
    (Report.ofSource {} ("karr i=0 l7d length(a[-1]) ".push '{')).hasCriticalLoop = false ∧
    (Report.ofSource {} ("karr i=0 l7d length(a\n[0]) ".push '{')).hasCriticalLoop = false := by
  refine ⟨by decide, by decide, ?_, ?_⟩
  · rw [hasCriticalLoop_ofSource_eq_false_iff]
    decide
  · rw [hasCriticalLoop_ofSource_eq_false_iff]
    decide

/-! ### The spelling -/

/-- A loop whose bound has one subtracted from the call is left alone exactly when no call is made
or the call is not on one line, when its argument holds an adjustment, or when nothing or one space
stands between the sign and the one. Otherwise one is subtracted a second time. -/
theorem spelled_adjustment_left_alone_iff (options : AnalysisOptions) {name : String}
    (hname : name ∈ builtins) {e w₁ w₂ : List Char} (he : Text.Plain e)
    (h₁ : ∀ c ∈ w₁, c = ' ' ∨ c = '\t') (h₂ : ∀ c ∈ w₂, c = ' ' ∨ c = '\t') :
    (LeftAlone options (loopLine name e (spelled w₁ w₂)) ↔
      e = [] ∨ '\n' ∈ e ∨ isAdjusted e = true ∨ w₂ = [] ∨ w₂ = [' ']) ∧
    (¬ LeftAlone options (loopLine name e (spelled w₁ w₂)) →
      Repair.mended (loopLine name e (spelled w₁ w₂)) =
        loopLine name e (correction ++ spelled w₁ w₂)) := by
  have htail : Text.Plain (spelled w₁ w₂) := plain_spelled h₁ h₂
  have hfeed : '\n' ∉ spelled w₁ w₂ := not_mem_spelled h₁ h₂ (by decide)
  have hholds : HoldsCritical (loopLine name e (spelled w₁ w₂)).toList ↔
      '\n' ∉ e ∧ e ≠ [] ∧ isAdjusted e = false ∧ isAdjusted (spelled w₁ w₂) = false := by
    rw [holdsCritical_loopLine hname he htail getLast?_spelled]
    by_cases hne : e = []
    · have hcalls := callsLength_call_nil_append hname htail.not_open
      simp [hne, LoopBound.isCritical, hcalls]
    · rw [isCritical_call_append hname hne he.not_close]
      simp [hne, hfeed]
  constructor
  · rw [leftAlone_iff, hholds, ← isAdjusted_spelled_iff h₁ h₂]
    by_cases hline : '\n' ∈ e
    · simp [hline]
    · by_cases hne : e = [] <;> cases isAdjusted e <;> simp [hline, hne]
  · intro hnot
    rw [leftAlone_iff, not_not] at hnot
    exact mended_loopLine hname (hholds.mp hnot).2.1 he htail getLast?_spelled hnot

theorem spelled_adjustment_left_alone_tight :
    LeftAlone {} (loopLine "length" "rows".toList (spelled [] [' '])) := by
  have hplain : Text.Plain "rows".toList := ⟨by decide, by decide, by decide⟩
  have hlength : "length" ∈ builtins := by decide
  have hnone : ∀ c ∈ ([] : List Char), c = ' ' ∨ c = '\t' :=
    fun c hc ↦ absurd hc List.not_mem_nil
  have hspace : ∀ c ∈ [' '], c = ' ' ∨ c = '\t' := List.forall_mem_singleton.mpr (.inl rfl)
  have hleft := (spelled_adjustment_left_alone_iff {} hlength hplain hnone hspace).1
  exact hleft.mpr (by decide)

/-- Two spaces stand between the sign and the one. -/
def twoSpaces : String := "karr i=0 l7d length(a) -  1 ".push '{'

/-- One is subtracted twice there. -/
theorem twoSpaces_not_left_alone :
    twoSpaces = loopLine "length" ['a'] (spelled [' '] [' ', ' ']) ∧
    Repair.mended twoSpaces = "karr i=0 l7d length(a) - 1 -  1 ".push '{' ∧
    ¬ LeftAlone {} twoSpaces := by
  have hsource : Repair.source twoSpaces.toList =
      ("karr i=0 l7d length(a) - 1 -  1 ".push '{').toList := by decide
  have hmended : Repair.mended twoSpaces = "karr i=0 l7d length(a) - 1 -  1 ".push '{' := by
    rw [Repair.mended, hsource, String.ofList_toList]
  refine ⟨by decide, hmended, fun hleft ↦ ?_⟩
  have hsame := hleft.unchanged
  rw [hmended] at hsame
  exact absurd hsame (by decide)

end FlexGate
