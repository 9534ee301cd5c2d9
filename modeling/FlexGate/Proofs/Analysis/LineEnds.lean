import FlexGate.Analysis
import FlexGate.Proofs.Dialect
import FlexGate.Proofs.Pattern.LineEnds

/-!
# The analysis of texts with carriage returns

The findings and the warnings of the analysis are made from the lines of a program, and these do not
tell how they end. The dialect and the suggestions are made from the whole text, where a carriage
return is a blank like any other. This matters to three Franco headers, those of the conditional, of
the loop and of the loop with a condition: behind the words they begin with stand blanks, then
anything up to a brace (`condition`). A line feed alone cannot be both, the blank and what is before
the brace, but a carriage return and a line feed can. So with carriage returns a header is also read
where the brace is all that follows, on the next line (`voidHeader`).

No other pattern that is searched in the text tells its line ends (`occursIn_withReturns`). The
report is therefore the same unless such a void header is the only Franco in the program
(`returned_report_eq_iff`).
-/

set_option autoImplicit false
set_option relaxedAutoImplicit false

namespace FlexGate

open Pattern
open Text (withReturns)

namespace Shape

/-- Blanks, then anything up to an opening brace. -/
def condition : Pattern := Pattern.sequence [blanks1, some1 (.allBut '{'), openBrace]

/-- What the header of an inclusive loop begins with. -/
def loopBeginning : Pattern :=
  Pattern.sequence [keyword "karr", blanks1, optional (.group 1 counter), text "l7d"]

/-- What the Franco headers begin with that have a condition or a bound before the brace. -/
def beginning? : Construct → Option Pattern
  | .loop => some loopBeginning
  | .conditional => some (keyword "lw")
  | .whileLoop => some (keyword "talama")
  | _ => none

/-- The beginning of a header with a brace on the next line and nothing before it. -/
def voidHeader : Pattern :=
  oneOf ((Construct.all.filterMap beginning?).map fun beginning ↦
    .seq beginning (exactly ['\n', '{']))

/-- Whether a condition can be read at the start of a text. -/
def startsCondition : List Char → Bool
  | [] => false
  | x :: rest => Text.isBlank x && (rest.head? != some '{' && rest.contains '{')

theorem startsCondition_cons_iff {x : Char} {rest : List Char} :
    startsCondition (x :: rest) = true ↔
      Text.isBlank x = true ∧ rest.head? ≠ some '{' ∧ '{' ∈ rest := by
  rw [startsCondition, Bool.and_eq_true, Bool.and_eq_true, bne_iff_ne, List.contains_iff_mem]

theorem exists_mem_ends_condition {c : Cursor} :
    (∃ d, d ∈ condition.ends c) ↔ startsCondition c.ahead = true := by
  obtain ⟨behind, ahead⟩ := c
  have hblank : Text.isBlank '{' = false := by decide
  constructor
  · simp only [condition, Pattern.sequence, blanks1, openBrace, blanks, token, some1, mem_ends_seq,
      mem_ends_char, mem_ends_many]
    rintro ⟨d, _, ⟨_, ⟨x, _, rfl, hx, rfl⟩, run, _, rfl, hrun, rfl⟩,
      _, ⟨_, ⟨y, _, rfl, hy, rfl⟩, content, _, rfl, hcontent, rfl⟩,
      _, ⟨blanks, _, rfl, hblanks, rfl⟩, z, after, rfl, hz, rfl⟩
    obtain rfl := eq_of_beq hz
    refine startsCondition_cons_iff.mpr ⟨hx, ?_, by simp⟩
    cases run with
    | nil => simpa [CharClass.has] using hy
    | cons r run =>
      rintro ⟨⟩
      exact absurd ((hrun '{' List.mem_cons_self).symm.trans hblank) (by decide)
  · intro h
    cases ahead with
    | nil => cases h
    | cons x rest =>
      obtain ⟨hx, hhead, hmem⟩ := startsCondition_cons_iff.mp h
      obtain ⟨content, after, rfl, hcontent⟩ := List.eq_append_cons_of_mem hmem
      cases content with
      | nil => exact absurd rfl hhead
      | cons y content =>
        obtain ⟨hy, hcontent⟩ : '{' ≠ y ∧ '{' ∉ content := by simpa using hcontent
        have hnone : ∀ x ∈ ([] : List Char), Text.isBlank x = true := by simp
        simp only [condition, Pattern.sequence, blanks1, openBrace, blanks, token, some1,
          mem_ends_seq, mem_ends_char, mem_ends_many]
        refine ⟨_, _, ⟨_, ⟨x, _, rfl, hx, rfl⟩, [], _, rfl, hnone, rfl⟩,
          _, ⟨_, ⟨y, _, rfl, ?_, rfl⟩, content, _, rfl, ?_, rfl⟩,
          _, ⟨[], _, rfl, hnone, rfl⟩, '{', after, rfl, by decide, rfl⟩
        · exact bne_iff_ne.mpr (Ne.symm hy)
        · exact fun x hx ↦ bne_iff_ne.mpr (ne_of_mem_of_not_mem hx hcontent)

/-- With carriage returns a condition is read where it was, and where a line feed was between the
beginning and the brace. -/
theorem startsCondition_withReturns_iff {text : List Char} :
    startsCondition (withReturns text) = true ↔
      startsCondition text = true ∨ ['\n', '{'] <+: text := by
  cases text with
  | nil => simp [startsCondition]
  | cons x rest =>
    have hmem : '{' ∈ withReturns rest ↔ '{' ∈ rest := Text.mem_withReturns_iff (by decide)
    rw [List.cons_prefix_cons]
    by_cases hx : x = '\n'
    · subst hx
      have hreturn : Text.isBlank '\r' = true := by decide
      have hfeed : Text.isBlank '\n' = true := by decide
      have hbrace : ['{'] <+: rest ↔ rest.head? = some '{' := by
        cases rest with
        | nil => simp
        | cons y rest => simp [List.cons_prefix_cons, eq_comm]
      rw [Text.withReturns_feed, startsCondition_cons_iff, startsCondition_cons_iff, hbrace,
        List.head?_cons, List.mem_cons, hmem]
      constructor
      · rintro ⟨-, -, hrest⟩
        by_cases hhead : rest.head? = some '{'
        · exact .inr ⟨rfl, hhead⟩
        · exact .inl ⟨hfeed, hhead, hrest.resolve_left (by decide)⟩
      · rintro (⟨-, -, hrest⟩ | ⟨-, hhead⟩)
        · exact ⟨hreturn, by decide, .inr hrest⟩
        · exact ⟨hreturn, by decide, .inr (List.mem_of_head? hhead)⟩
    · have hhead : (withReturns rest).head? = some '{' ↔ rest.head? = some '{' :=
        Text.head?_withReturns_eq_iff (by decide) (by decide)
      rw [Text.withReturns_cons_of_ne hx, startsCondition_cons_iff, startsCondition_cons_iff,
        Ne, hhead, hmem]
      exact (or_iff_left fun h ↦ hx h.1.symm).symm

/-! ### Headers -/

/-- The header of an inclusive loop is its beginning and a condition. -/
theorem occursIn_inclusiveLoop (text : List Char) :
    inclusiveLoop.occursIn text = (Pattern.seq loopBeginning condition).occursIn text := by
  have hends {c d : Cursor} :
      d ∈ inclusiveLoop.ends c ↔ d ∈ (Pattern.seq loopBeginning condition).ends c := by
    simp only [inclusiveLoop, loopBeginning, condition, Pattern.sequence, mem_ends_seq, ends_group]
    constructor
    · rintro ⟨a, ha, b, hb, first, hfirst, e, he, hd⟩
      exact ⟨e, ⟨a, ha, b, hb, first, hfirst, he⟩, hd⟩
    · rintro ⟨e, ⟨a, ha, b, hb, first, hfirst, he⟩, hd⟩
      exact ⟨a, ha, b, hb, first, hfirst, e, he, hd⟩
  rw [Bool.eq_iff_iff, occursIn_iff, occursIn_iff]
  simp only [hends]

/-- A header is read in the text with carriage returns where it is read in the text without, and
where nothing but a line feed is between its beginning and the brace. -/
theorem occursIn_header_withReturns {beginning : Pattern}
    (hin : beginning.carriesIn false = some false) (hout : beginning.carriesOut true = some false)
    (hconsumes : beginning.consumes = true) (text : List Char) :
    (Pattern.seq beginning condition).occursIn (withReturns text) = true ↔
      (Pattern.seq beginning condition).occursIn text = true ∨
        (Pattern.seq beginning (exactly ['\n', '{'])).occursIn text = true := by
  have hcarried : ∀ {d' d : Cursor}, Cursor.StandsFor (false || false) d' d →
      ((∃ e, e ∈ condition.ends d') ↔
        (∃ e, e ∈ condition.ends d) ∨ ∃ e, e ∈ (exactly ['\n', '{']).ends d) := by
    intro d' d hd
    have hvoid : (∃ e, e ∈ (exactly ['\n', '{']).ends d) ↔ ['\n', '{'] <+: d.ahead := by
      constructor
      · rintro ⟨e, he⟩
        obtain ⟨rest, hahead, -⟩ := mem_ends_exactly.mp he
        exact ⟨rest, hahead.symm⟩
      · rintro ⟨rest, hahead⟩
        exact ⟨_, mem_ends_exactly.mpr ⟨rest, hahead.symm, rfl⟩⟩
    cases hd with
    | whole d =>
      rw [exists_mem_ends_condition, exists_mem_ends_condition, hvoid]
      exact startsCondition_withReturns_iff
  rw [occursIn_seq_iff, readsUpTo_withReturns hin hout hconsumes hcarried, occursIn_seq_iff,
    occursIn_seq_iff]
  exact readsUpTo_or

theorem occursIn_either_iff {p q : Pattern} {text : List Char} :
    (Pattern.either p q).occursIn text = true ↔
      p.occursIn text = true ∨ q.occursIn text = true := by
  simp only [occursIn_iff, mem_ends_either, exists_or, and_or_left]

theorem occursIn_voidHeader_iff {text : List Char} :
    voidHeader.occursIn text = true ↔ ∃ construct, ∃ beginning ∈ beginning? construct,
      (Pattern.seq beginning (exactly ['\n', '{'])).occursIn text = true := by
  change (Pattern.either _ (Pattern.either _ _)).occursIn text = true ↔ _
  rw [occursIn_either_iff, occursIn_either_iff]
  constructor
  · rintro (h | h | h)
    · exact ⟨.loop, _, rfl, h⟩
    · exact ⟨.conditional, _, rfl, h⟩
    · exact ⟨.whileLoop, _, rfl, h⟩
  · rintro ⟨construct, beginning, hbeginning, h⟩
    cases construct <;> cases hbeginning
    · exact .inl h
    · exact .inr (.inl h)
    · exact .inr (.inr h)

/-! ### Slashes and comments -/

theorem occursIn_divisionOperator_withReturns (text : List Char) :
    divisionOperator.occursIn (withReturns text) = divisionOperator.occursIn text := by
  have hhead {rest : List Char} : (withReturns rest).head? = some '/' ↔ rest.head? = some '/' :=
    Text.head?_withReturns_eq_iff (by decide) (by decide)
  rw [Bool.eq_iff_iff, occursIn_divisionOperator_iff, occursIn_divisionOperator_iff]
  constructor
  · rintro ⟨first, second, heq, hlead, hrest⟩
    obtain ⟨lead, rest, rfl, rfl, rfl⟩ :=
      (Text.withReturns_eq_append_cons_iff (by decide) (by decide)).mp heq
    rw [Text.getLast?_withReturns] at hlead
    exact ⟨lead, rest, rfl, hlead, mt hhead.mpr hrest⟩
  · rintro ⟨lead, rest, rfl, hlead, hrest⟩
    refine ⟨withReturns lead, withReturns rest, ?_, ?_, mt hhead.mp hrest⟩
    · rw [Text.withReturns_append, Text.withReturns_cons_of_ne (by decide)]
    · rwa [Text.getLast?_withReturns]

end Shape

open Shape

namespace Analysis

theorem hasComment_withReturns (text : List Char) :
    hasComment (withReturns text) = hasComment text := by
  have hmarker : ∀ marker ∈ commentMarkers,
      Text.hasInfix marker.toList (withReturns text) = Text.hasInfix marker.toList text := by
    intro marker hmem
    have hsame : (exactly marker.toList).occursIn (withReturns text) =
        (exactly marker.toList).occursIn text ∧ marker.toList ≠ [] := by
      rcases List.mem_pair.mp hmem with rfl | rfl
      · exact ⟨occursIn_withReturns (by decide) (by decide) (by decide) text, by decide⟩
      · exact ⟨occursIn_withReturns (by decide) (by decide) (by decide) text, by decide⟩
    rw [← occursIn_exactly hsame.2, ← occursIn_exactly hsame.2, hsame.1]
  rw [hasComment, hasComment, Bool.eq_iff_iff, List.any_eq_true, List.any_eq_true]
  exact exists_congr fun marker ↦ and_congr_right fun hmem ↦ by rw [hmarker marker hmem]

theorem suggestions_withReturns (dialect : Dialect) (text : List Char) :
    suggestions dialect (withReturns text) = suggestions dialect text := by
  have hinput : inputCall.occursIn (withReturns text) = inputCall.occursIn text :=
    occursIn_withReturns (by decide) (by decide) (by decide) text
  have hguard : conditionalGuard.occursIn (withReturns text) = conditionalGuard.occursIn text :=
    occursIn_withReturns (by decide) (by decide) (by decide) text
  rw [suggestions, suggestions, dividesUnguarded, dividesUnguarded, hinput, hguard,
    occursIn_divisionOperator_withReturns, hasComment_withReturns]

end Analysis

/-! ### The vocabularies -/

namespace Vocabulary

theorem english_occurs_withReturns (construct : Construct) (text : List Char) :
    (english.pattern construct).occursIn (withReturns text) =
      (english.pattern construct).occursIn text := by
  cases construct <;> exact occursIn_withReturns (by decide) (by decide) (by decide) text

theorem english_count_withReturns (text : List Char) :
    0 < english.count (withReturns text) ↔ 0 < english.count text := by
  simp only [count_pos_iff_exists, english_occurs_withReturns]

/-- With carriage returns a Franco construct occurs where it did or, if it is a header with a
condition or a bound, where that is void. -/
theorem franco_occurs_withReturns (construct : Construct) (text : List Char) :
    (franco.pattern construct).occursIn (withReturns text) = true ↔
      (franco.pattern construct).occursIn text = true ∨ ∃ beginning ∈ beginning? construct,
        (Pattern.seq beginning (exactly ['\n', '{'])).occursIn text = true := by
  cases hbeginning : beginning? construct with
  | none =>
    have hsame : (franco.pattern construct).occursIn (withReturns text) =
        (franco.pattern construct).occursIn text := by
      cases construct <;> first
        | exact occursIn_withReturns (by decide) (by decide) (by decide) text
        | cases hbeginning
    simp [hsame]
  | some beginning =>
    have hheader : (∀ text, (franco.pattern construct).occursIn text =
        (Pattern.seq beginning condition).occursIn text) ∧
          beginning.carriesIn false = some false ∧ beginning.carriesOut true = some false ∧
            beginning.consumes = true := by
      cases construct <;> cases hbeginning
      · exact ⟨occursIn_inclusiveLoop, by decide, by decide, by decide⟩
      · exact ⟨fun _ ↦ rfl, by decide, by decide, by decide⟩
      · exact ⟨fun _ ↦ rfl, by decide, by decide, by decide⟩
    obtain ⟨hpattern, hin, hout, hconsumes⟩ := hheader
    rw [hpattern, hpattern, occursIn_header_withReturns hin hout hconsumes]
    simp

/-- With carriage returns Franco occurs where it did, and where a void header does. -/
theorem franco_count_withReturns (text : List Char) :
    0 < franco.count (withReturns text) ↔
      0 < franco.count text ∨ voidHeader.occursIn text = true := by
  rw [count_pos_iff_exists, count_pos_iff_exists, occursIn_voidHeader_iff]
  simp only [franco_occurs_withReturns, exists_or]

end Vocabulary

namespace Dialect

/-- The dialect tells which vocabularies occur, and nothing else. -/
theorem ofCounts_eq_iff {franco english franco' english' : Nat} :
    ofCounts franco english = ofCounts franco' english' ↔
      (0 < franco ↔ 0 < franco') ∧ (0 < english ↔ 0 < english') := by
  have hcases (a b : Nat) : ofCounts a b = if 0 < a then if 0 < b then .mixed else .franco
      else if 0 < b then .english else .undetermined := by
    unfold ofCounts
    split_ifs <;> first | rfl | omega
  rw [hcases, hcases]
  split_ifs <;> simp [*]

/-- The dialect is the same with carriage returns, unless a void header is the only Franco. -/
theorem classify_withReturns_eq_iff (text : List Char) :
    classify (withReturns text) = classify text ↔
      0 < Vocabulary.franco.count text ∨ voidHeader.occursIn text = false := by
  rw [classify, classify, ofCounts_eq_iff, Vocabulary.franco_count_withReturns,
    and_iff_left (Vocabulary.english_count_withReturns text), ← Bool.not_eq_true]
  tauto

end Dialect

open Analysis

theorem analyze_withReturns {text : List Char} (h : '\r' ∉ text) (options : AnalysisOptions) :
    analyze options (withReturns text) =
      { dialect := Dialect.classify (withReturns text)
        findings := findings options (Text.lines text)
        warnings := warnings options (Dialect.classify (withReturns text)) (Text.lines text)
        suggestions := suggestions (Dialect.classify (withReturns text)) text } := by
  rw [analyze, Text.lines_withReturns h, suggestions_withReturns]

/-- A program without carriage returns has the same findings when each of its line feeds gets one,
and the same report exactly if Franco occurs in it or no void header does. -/
theorem returned_report_eq_iff (options : AnalysisOptions) (s : String) (h : '\r' ∉ s.toList) :
    (Report.ofSource options (Text.returned s)).findings =
        (Report.ofSource options s).findings ∧
      (Report.ofSource options (Text.returned s) = Report.ofSource options s ↔
        0 < Vocabulary.franco.count s.toList ∨ voidHeader.occursIn s.toList = false) := by
  rw [Report.ofSource, Report.ofSource, Text.toList_returned, analyze_withReturns h,
    ← Dialect.classify_withReturns_eq_iff]
  refine ⟨rfl, fun heq ↦ congrArg Report.dialect heq, fun heq ↦ ?_⟩
  rw [heq]
  rfl

/-- A condition on the line of its keyword, with the brace on the next. -/
def plainConditional : String := "lw x
{
}"

theorem returned_report_eq_iff_conditional :
    '\r' ∉ plainConditional.toList ∧ ∀ options : AnalysisOptions,
      Report.ofSource options (Text.returned plainConditional) =
        Report.ofSource options plainConditional := by
  refine ⟨by decide, fun options ↦ ?_⟩
  refine (returned_report_eq_iff options _ (by decide)).2.mpr (.inl ?_)
  refine Vocabulary.count_pos_iff_exists.mpr ⟨.conditional, ?_⟩
  decide

/-- A condition that is void, with the brace on the line below the keyword. -/
def voidConditional : String := "lw
{
}"

/-- With carriage returns it is classified as Franco, and without them it is not. -/
theorem voidConditional_not_returned :
    '\r' ∉ voidConditional.toList ∧
      Report.ofSource {} (Text.returned voidConditional) ≠
        Report.ofSource {} voidConditional := by
  refine ⟨by decide, fun h ↦ ?_⟩
  have hdialect : Dialect.classify (Text.returned voidConditional).toList =
      Dialect.classify voidConditional.toList := congrArg Report.dialect h
  revert hdialect
  decide

end FlexGate
