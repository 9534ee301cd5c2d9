import FlexGate.Proofs.Loop.Spelling

/-!
# Headers that are broken over lines

The blanks in a loop header may be line feeds, and the loop pattern reads them as it reads others.
So a program is classified by all its headers, however they are broken over lines. Analysis and
mending look at one line after the other, and no line holds a header that a line feed breaks
(`CallHeader.holdsCritical_text`): the rest of the program alone decides whether it is reported.
-/

set_option autoImplicit false
set_option relaxedAutoImplicit false

namespace FlexGate

open LoopHeader LoopBound

/-- A program with a loop over the elements of something. The header starts a line, and its blanks
are as given. -/
def laidOut (before w₁ w₂ argument w₃ after : List Char) : String :=
  String.ofList (before ++ '\n' :: ("karr".toList ++ w₁ ++ "i=0 l7d".toList ++ w₂ ++
    call "length" [] argument ++ w₃ ++ '{' :: after))

section LaidOut

variable {w₁ w₂ argument w₃ : List Char}

/-- The header of the loop. -/
def CallHeader.laidOut (h₁ : Text.IsGap w₁) (h₂ : Text.IsGap w₂)
    (h₃ : ∀ c ∈ w₃, Text.isBlank c = true) (ha : Text.Plain argument) : CallHeader where
  first := w₁
  second := w₂
  name := "length"
  argument := argument
  tail := []
  last := w₃
  first_gap := h₁
  second_gap := h₂
  name_mem := by decide
  argument_plain := ha
  tail_plain := Text.plain_nil
  tail_last := by simp
  last_blank := h₃

variable (h₁ : Text.IsGap w₁) (h₂ : Text.IsGap w₂) (h₃ : ∀ c ∈ w₃, Text.isBlank c = true)
  (ha : Text.Plain argument)

theorem toList_laidOut (before after : List Char) :
    (laidOut before w₁ w₂ argument w₃ after).toList =
      before ++ '\n' :: ((CallHeader.laidOut h₁ h₂ h₃ ha).text ++ '{' :: after) := by
  have hlist : (laidOut before w₁ w₂ argument w₃ after).toList =
      before ++ '\n' :: ("karr".toList ++ w₁ ++ "i=0 l7d".toList ++ w₂ ++
        call "length" [] argument ++ w₃ ++ '{' :: after) := String.toList_ofList
  rw [hlist]
  simp only [CallHeader.laidOut, CallHeader.text, CallHeader.bound, preamble, List.append_assoc,
    List.nil_append]

theorem isCritical_bound_laidOut (hne : argument ≠ []) (hminus : '-' ∉ argument) :
    isCritical (CallHeader.laidOut h₁ h₂ h₃ ha).bound = true := by
  show isCritical (call "length" [] argument ++ []) = true
  rw [isCritical_call_append (by decide) hne ha.not_close, isAdjusted_of_not_mem hminus,
    isAdjusted_of_not_mem List.not_mem_nil]
  rfl

theorem lineFeed_not_mem_text_laidOut (hfeed : '\n' ∉ argument) :
    '\n' ∉ (CallHeader.laidOut h₁ h₂ h₃ ha).text ↔ '\n' ∉ w₁ ∧ '\n' ∉ w₂ ∧ '\n' ∉ w₃ := by
  simp [CallHeader.laidOut, CallHeader.text, CallHeader.bound, preamble, call, hfeed]

end LaidOut

/-- The loop pattern occurs in the program whatever the blanks of the header are. On one line the
header makes the program critical, whatever stands around it; with a line feed among its blanks it
adds nothing to what stands on the lines around it. -/
theorem layout_decides_criticality (options : AnalysisOptions) {w₁ w₂ e w₃ : List Char}
    (h₁ : Text.IsGap w₁) (h₂ : Text.IsGap w₂) (h₃ : ∀ c ∈ w₃, Text.isBlank c = true)
    (he : Text.Plain e) (hne : e ≠ []) (hminus : '-' ∉ e) (hfeed : '\n' ∉ e)
    (before after : List Char) :
    (Vocabulary.franco.pattern .loop).occursIn (laidOut before w₁ w₂ e w₃ after).toList = true ∧
    ('\n' ∉ w₁ ∧ '\n' ∉ w₂ ∧ '\n' ∉ w₃ →
      (Report.ofSource options (laidOut before w₁ w₂ e w₃ after)).hasCriticalLoop = true) ∧
    ((Report.ofSource options (laidOut before w₁ w₂ e w₃ ('\n' :: after))).hasCriticalLoop = true ↔
      ('\n' ∉ w₁ ∧ '\n' ∉ w₂ ∧ '\n' ∉ w₃) ∨
        (Report.ofSource options (String.ofList before)).hasCriticalLoop = true ∨
        (Report.ofSource options (String.ofList after)).hasCriticalLoop = true) := by
  let header := CallHeader.laidOut h₁ h₂ h₃ he
  have hcritical : isCritical header.bound = true :=
    isCritical_bound_laidOut h₁ h₂ h₃ he hne hminus
  have hlines : '\n' ∉ header.text ↔ '\n' ∉ w₁ ∧ '\n' ∉ w₂ ∧ '\n' ∉ w₃ :=
    lineFeed_not_mem_text_laidOut h₁ h₂ h₃ he hfeed
  simp only [hasCriticalLoop_iff_holdsCritical, toList_laidOut h₁ h₂ h₃ he, String.toList_ofList,
    holdsCritical_append_cons]
  refine ⟨header.occursIn_append_text_append before after, fun hline ↦ .inr ?_, ?_⟩
  · have hfeed' : '\n' ∉ header.text ++ ['{'] := by simpa using hlines.mpr hline
    -- The header is at the start of the first line behind `before`.
    obtain ⟨rest, others, -, hsplit⟩ := Text.exists_splitLines_append hfeed' after
    rw [List.append_assoc, List.singleton_append] at hsplit
    refine ⟨(header.text ++ ['{']) ++ rest, by rw [hsplit]; exact List.mem_cons_self, ?_⟩
    rw [List.append_assoc, List.singleton_append]
    exact (header.hasCritical_text_append rest).mpr hcritical
  · have hsplit : header.text ++ '{' :: '\n' :: after =
        (header.text ++ ['{']) ++ '\n' :: after := by simp
    have hheader : HoldsCritical (header.text ++ ['{']) ↔
        '\n' ∉ w₁ ∧ '\n' ∉ w₂ ∧ '\n' ∉ w₃ := by
      rw [header.holdsCritical_text, hlines]
      exact and_iff_left hcritical
    rw [hsplit, holdsCritical_append_cons, hheader]
    exact or_left_comm

theorem layout_decides_criticality_tab :
    (Report.ofSource {} (laidOut [] [' '] ['\t'] "rows".toList [] ['\n', '}'])).hasCriticalLoop =
      true := by
  have hspace : Text.IsGap [' '] := Text.isGap_singleton (by decide)
  have htab : Text.IsGap ['\t'] := Text.isGap_singleton (by decide)
  have hrows : Text.Plain "rows".toList := ⟨by decide, by decide, by decide⟩
  have hlaid := layout_decides_criticality {} hspace htab (fun c hc ↦ absurd hc List.not_mem_nil)
    hrows (by decide) (by decide) (by decide) [] ['\n', '}']
  exact hlaid.2.1 (by decide)

/-- The brace of the loop on a line of its own. -/
def braceBelow : String := "
karr i=0 l7d length(items)
{
}"

/-- The loop is classified by and not reported, and so the program is accepted. -/
theorem braceBelow_accepted :
    braceBelow = laidOut [] [' '] [' '] "items".toList ['\n'] ['\n', '}'] ∧
    (Vocabulary.franco.pattern .loop).occursIn braceBelow.toList = true ∧
    (Report.ofSource {} braceBelow).dialect = .franco ∧
    (Report.ofSource {} braceBelow).hasCriticalLoop = false ∧
    (Report.ofSource {} braceBelow).isAcceptable = true := by
  refine ⟨by decide, by decide, by decide, ?_, by decide⟩
  rw [hasCriticalLoop_ofSource_eq_false_iff]
  decide

end FlexGate
