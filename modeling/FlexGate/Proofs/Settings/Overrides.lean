import FlexGate.Settings.Environment
import Mathlib.Data.List.Basic

/-!
# Overrides from the environment

Five variables override one field of the settings each (`Variable`). A variable that is set to a
usable text gives its field the value that the text says (`gives_of_usable`). A field keeps its
value when its variable is not set, or when it is the timeout and its text is no number
(`same_of_not_usable`). No other field is changed (`sameElsewhere_applyEnvironment`).

The laws of overriding follow from these facts, field by field: to override twice is to override
once, and to override from one environment and then from another is to override from the second
laid over the first (`overrides_compose`).
-/

set_option autoImplicit false
set_option relaxedAutoImplicit false

namespace FlexGate

/-! ### Numbers -/

namespace Word

/-- The decimal digits of a number that fits into 64 bits. Zeros may lead. -/
structure Spells (digits : List Char) (n : Nat) : Prop where
  ne_nil : digits ≠ []
  digit : ∀ c ∈ digits, '0' ≤ c ∧ c ≤ '9'
  value : Nat.ofDigitChars 10 digits 0 = n
  fits : n < UInt64.size

/-- The digits of a number, with or without a plus sign before them. -/
def Denotes (text : List Char) (n : Nat) : Prop :=
  Spells text n ∨ ∃ digits, text = '+' :: digits ∧ Spells digits n

theorem not_spells_plus {digits : List Char} {n : Nat} : ¬ Spells ('+' :: digits) n := fun h ↦
  absurd (h.digit '+' List.mem_cons_self).1 (by decide)

theorem Denotes.unique {text : List Char} {m n : Nat} (hm : Denotes text m) (hn : Denotes text n) :
    m = n := by
  rcases hm with hm | ⟨digits, rfl, hm⟩
  · rcases hn with hn | ⟨digits, rfl, -⟩
    · rw [← hm.value, hn.value]
    · exact absurd hm not_spells_plus
  · rcases hn with hn | ⟨others, heq, hn⟩
    · exact absurd hn not_spells_plus
    · rw [← hm.value, (List.cons.inj heq).2, hn.value]

theorem readDigits_eq_some_iff {start n : Nat} {digits : List Char} :
    readDigits start digits = some n ↔
      (∀ c ∈ digits, '0' ≤ c ∧ c ≤ '9') ∧ Nat.ofDigitChars 10 digits start = n := by
  induction digits generalizing start with
  | nil => simp [readDigits]
  | cons c digits ih =>
    rw [readDigits, digit?, List.forall_mem_cons, Nat.ofDigitChars_cons, Nat.mul_comm 10]
    by_cases hc : '0' ≤ c ∧ c ≤ '9'
    · rw [if_pos hc, Option.bind_some, ih, and_assoc, and_iff_right hc]
    · rw [if_neg hc, Option.bind_none]
      exact iff_of_false nofun fun h ↦ hc h.1.1

theorem readWord_eq_some_iff {digits : List Char} {n : Nat} :
    (if digits = [] then none else (readDigits 0 digits).filter (· ≤ greatest)) = some n ↔
      Spells digits n := by
  have hfits : n ≤ greatest ↔ n < UInt64.size := by
    have hsize : 0 < UInt64.size := by decide
    unfold greatest
    omega
  split_ifs with hnil
  · exact iff_of_false nofun fun h ↦ h.ne_nil hnil
  · rw [Option.filter_eq_some_iff, readDigits_eq_some_iff, decide_eq_true_iff, hfits]
    constructor
    · rintro ⟨⟨hdigit, hvalue⟩, hsize⟩
      exact ⟨hnil, hdigit, hvalue, hsize⟩
    · intro h
      exact ⟨⟨h.digit, h.value⟩, h.fits⟩

theorem ofChars?_plus (digits : List Char) :
    ofChars? ('+' :: digits) =
      if digits = [] then none else (readDigits 0 digits).filter (· ≤ greatest) := rfl

theorem ofChars?_of_head?_ne {digits : List Char} (h : digits.head? ≠ some '+') :
    ofChars? digits =
      if digits = [] then none else (readDigits 0 digits).filter (· ≤ greatest) := by
  simp only [ofChars?]
  split
  · exact absurd rfl h
  · rfl

theorem ofChars?_eq_some_iff {text : List Char} {n : Nat} :
    ofChars? text = some n ↔ Denotes text n := by
  by_cases hplus : text.head? = some '+'
  · obtain ⟨digits, rfl⟩ := List.head?_eq_some_iff.mp hplus
    rw [ofChars?_plus, readWord_eq_some_iff]
    constructor
    · intro h
      exact .inr ⟨digits, rfl, h⟩
    · rintro (h | ⟨others, heq, h⟩)
      · exact absurd h not_spells_plus
      · rwa [(List.cons.inj heq).2]
  · rw [ofChars?_of_head?_ne hplus, readWord_eq_some_iff]
    constructor
    · exact .inl
    · rintro (h | ⟨digits, rfl, -⟩)
      · exact h
      · exact absurd rfl hplus

end Word

namespace Settings

/-! ### Lists of extensions -/

theorem splitCommas_append_cons {part : List Char} (h : ',' ∉ part) (rest : List Char) :
    splitExtensions.splitCommas (part ++ ',' :: rest) =
      part :: splitExtensions.splitCommas rest := by
  induction part with
  | nil => rfl
  | cons c part ih =>
    have hc : c ≠ ',' := fun hc ↦ h (hc ▸ List.mem_cons_self)
    rw [List.cons_append, splitExtensions.splitCommas,
      ih fun hmem ↦ h (List.mem_cons_of_mem c hmem)]
    exact fun hcomma ↦ hc hcomma

theorem splitCommas_of_not_mem {part : List Char} (h : ',' ∉ part) :
    splitExtensions.splitCommas part = [part] := by
  induction part with
  | nil => rfl
  | cons c part ih =>
    have hc : c ≠ ',' := fun hc ↦ h (hc ▸ List.mem_cons_self)
    rw [splitExtensions.splitCommas, ih fun hmem ↦ h (List.mem_cons_of_mem c hmem)]
    exact fun hcomma ↦ hc hcomma

theorem splitCommas_intercalate {parts : List (List Char)} (hne : parts ≠ [])
    (h : ∀ part ∈ parts, ',' ∉ part) :
    splitExtensions.splitCommas ([','].intercalate parts) = parts := by
  induction parts with
  | nil => exact absurd rfl hne
  | cons part parts ih =>
    rw [List.forall_mem_cons] at h
    cases parts with
    | nil => rw [List.intercalate_singleton, splitCommas_of_not_mem h.1]
    | cons next parts =>
      rw [List.intercalate_cons_cons, List.append_assoc, List.singleton_append,
        splitCommas_append_cons h.1, ih (List.cons_ne_nil next parts) h.2]

/-- Extensions that can be told apart in a list with commas between them. -/
def Separable (extension : String) : Prop :=
  ',' ∉ extension.toList ∧ Text.trimmed extension = extension ∧ extension ≠ ""

/-- A list of extensions is read back from its text. -/
theorem splitExtensions_intercalate {extensions : List String}
    (h : ∀ e ∈ extensions, Separable e) :
    splitExtensions (",".intercalate extensions) = extensions := by
  by_cases hnil : extensions = []
  · subst hnil
    decide
  · have hparts : splitExtensions.splitCommas (",".intercalate extensions).toList =
        extensions.map String.toList := by
      rw [String.toList_intercalate]
      refine splitCommas_intercalate (by simpa using hnil) fun part hpart ↦ ?_
      obtain ⟨e, he, rfl⟩ := List.mem_map.mp hpart
      exact (h e he).1
    have htrimmed : extensions.map Text.trimmed = extensions := by
      rw [List.map_congr_left fun e he ↦ (h e he).2.1]
      exact List.map_id _
    rw [splitExtensions, hparts, List.map_map]
    change (extensions.map Text.trimmed).filter _ = extensions
    rw [htrimmed, List.filter_eq_self]
    intro e he
    simpa using (h e he).2.2

/-! ### The variables and their fields -/

/-- The variables that override settings. -/
inductive Variable
  | interpreter
  | tempDir
  | outputDir
  | extensions
  | timeout
  deriving DecidableEq

namespace Variable

def name : Variable → String
  | .interpreter => "FLEX_CLI_PATH"
  | .tempDir => "FLEX_TEMP_DIR"
  | .outputDir => "FLEX_EXAMPLES_DIR"
  | .extensions => "FLEX_FILE_EXTENSIONS"
  | .timeout => "EXECUTION_TIMEOUT"

/-- The field of a variable has the value that a text says. -/
def Gives (v : Variable) (text : String) (s : Settings) : Prop :=
  match v with
  | .interpreter => s.interpreter.path = text
  | .tempDir => s.execution.tempDir = text
  | .outputDir => s.execution.outputDir = text
  | .extensions => s.execution.fileExtensions = splitExtensions text
  | .timeout => Word.Denotes (Text.trim text.toList) s.execution.defaultTimeoutSecs

/-- A text says a value for the field of a variable. -/
def Usable (v : Variable) (text : String) : Prop :=
  match v with
  | .timeout => ∃ n, Word.Denotes (Text.trim text.toList) n
  | _ => True

/-- The field of a variable has the same value in two settings. -/
def Same (v : Variable) (s t : Settings) : Prop :=
  match v with
  | .interpreter => s.interpreter.path = t.interpreter.path
  | .tempDir => s.execution.tempDir = t.execution.tempDir
  | .outputDir => s.execution.outputDir = t.execution.outputDir
  | .extensions => s.execution.fileExtensions = t.execution.fileExtensions
  | .timeout => s.execution.defaultTimeoutSecs = t.execution.defaultTimeoutSecs

variable {v : Variable} {s t u : Settings}

theorem usable_of_ne (hv : v ≠ .timeout) (text : String) : v.Usable text := by
  cases v
  case timeout => exact absurd rfl hv
  all_goals exact trivial

theorem Same.refl (v : Variable) (s : Settings) : v.Same s s := by
  cases v <;> exact rfl

theorem Same.symm (h : v.Same s t) : v.Same t s := by
  cases v <;> exact Eq.symm h

theorem Same.trans (hst : v.Same s t) (htu : v.Same t u) : v.Same s u := by
  cases v <;> exact Eq.trans hst htu

theorem same_of_gives {text : String} (hs : v.Gives text s) (ht : v.Gives text t) : v.Same s t := by
  cases v
  case timeout => exact hs.unique ht
  all_goals exact Eq.trans hs (Eq.symm ht)

theorem Same.gives {text : String} (h : v.Same s t) (hs : v.Gives text s) : v.Gives text t := by
  cases v <;> simp_all [Same, Gives]

end Variable

/-- The fields that no variable overrides have the same values in two settings. -/
structure SameElsewhere (s t : Settings) : Prop where
  probeTimeoutSecs : s.interpreter.probeTimeoutSecs = t.interpreter.probeTimeoutSecs
  gracePeriodMs : s.execution.gracePeriodMs = t.execution.gracePeriodMs
  limits : s.limits = t.limits
  analysis : s.analysis = t.analysis

theorem SameElsewhere.symm {s t : Settings} (h : SameElsewhere s t) : SameElsewhere t s :=
  ⟨h.1.symm, h.2.symm, h.3.symm, h.4.symm⟩

theorem SameElsewhere.trans {s t u : Settings} (hst : SameElsewhere s t)
    (htu : SameElsewhere t u) : SameElsewhere s u :=
  ⟨hst.1.trans htu.1, hst.2.trans htu.2, hst.3.trans htu.3, hst.4.trans htu.4⟩

/-- Settings that agree in all fields are the same. -/
theorem eq_of_same {s t : Settings} (h : ∀ v : Variable, v.Same s t) (helse : SameElsewhere s t) :
    s = t := by
  obtain ⟨⟨path, probe⟩, ⟨timeout, grace, temp, output, extensions⟩, limits, analysis⟩ := s
  obtain ⟨⟨path', probe'⟩, ⟨timeout', grace', temp', output', extensions'⟩, limits', analysis'⟩ := t
  obtain ⟨rfl, rfl, rfl, rfl⟩ := helse
  obtain rfl : path = path' := h .interpreter
  obtain rfl : temp = temp' := h .tempDir
  obtain rfl : output = output' := h .outputDir
  obtain rfl : extensions = extensions' := h .extensions
  obtain rfl : timeout = timeout' := h .timeout
  rfl

/-! ### One environment -/

variable {env env' : Environment} {s t : Settings}

/-- The ways in which overriding can go: the timeout is not set, or to a number, or to another
text. -/
theorem applyEnvironment_cases (env : Environment) (s : Settings) :
    (env Variable.timeout.name = none ∧ applyEnvironment env s = (overrideTexts env s, none)) ∨
    (∃ text n, env Variable.timeout.name = some text ∧ Word.Denotes (Text.trim text.toList) n ∧
      applyEnvironment env s = ((overrideTexts env s).setTimeout n, none)) ∨
    ∃ text, env Variable.timeout.name = some text ∧ ¬ Variable.timeout.Usable text ∧
      applyEnvironment env s = (overrideTexts env s, some (timeoutFailure text)) := by
  have hread (text : String) (n : Nat) : Word.ofText? (Text.trimmed text) = some n ↔
      Word.Denotes (Text.trim text.toList) n := by
    rw [Word.ofText?, Text.trimmed, String.toList_ofList, Word.ofChars?_eq_some_iff]
  rw [applyEnvironment, Variable.name]
  cases env "EXECUTION_TIMEOUT" with
  | none => exact .inl ⟨rfl, rfl⟩
  | some text =>
    cases hword : Word.ofText? (Text.trimmed text) with
    | some n => exact .inr (.inl ⟨text, n, rfl, (hread text n).mp hword, by simp only [hword]⟩)
    | none =>
      refine .inr (.inr ⟨text, rfl, fun ⟨n, hn⟩ ↦ ?_, by simp only [hword]⟩)
      rw [(hread text n).mpr hn] at hword
      cases hword

/-- Overriding fails when the timeout is set to a text that is no number. -/
theorem snd_applyEnvironment_eq_none_iff :
    (applyEnvironment env s).2 = none ↔
      ∀ text, env Variable.timeout.name = some text → Variable.timeout.Usable text := by
  rcases applyEnvironment_cases env s with ⟨htimeout, h⟩ | ⟨text, n, htimeout, hn, h⟩ |
    ⟨text, htimeout, hn, h⟩
  · simp [h, htimeout]
  · rw [h]
    refine iff_of_true rfl fun other hother ↦ ?_
    obtain rfl := Option.some.inj (htimeout.symm.trans hother)
    exact ⟨n, hn⟩
  · rw [h]
    exact iff_of_false nofun fun husable ↦ hn (husable text htimeout)

/-- The variables other than the timeout are not concerned by its text. -/
theorem same_overrideTexts {v : Variable} (hv : v ≠ .timeout) :
    v.Same (applyEnvironment env s).1 (overrideTexts env s) := by
  rcases applyEnvironment_cases env s with ⟨-, h⟩ | ⟨text, n, -, -, h⟩ | ⟨text, -, -, h⟩
  · rw [h]
    exact Variable.Same.refl v _
  · rw [h]
    cases v
    case timeout => exact absurd rfl hv
    all_goals exact rfl
  · rw [h]
    exact Variable.Same.refl v _

/-- A variable that says a value gives it to its field. -/
theorem gives_of_usable {v : Variable} {text : String} (hset : env v.name = some text)
    (husable : v.Usable text) : v.Gives text (applyEnvironment env s).1 := by
  by_cases hv : v = .timeout
  · subst hv
    rcases applyEnvironment_cases env s with ⟨htimeout, -⟩ | ⟨other, n, htimeout, hn, h⟩ |
      ⟨other, htimeout, hn, -⟩
    · rw [htimeout] at hset
      cases hset
    · obtain rfl := Option.some.inj (htimeout.symm.trans hset)
      rw [h]
      exact hn
    · obtain rfl := Option.some.inj (htimeout.symm.trans hset)
      exact absurd husable hn
  · refine (same_overrideTexts hv).symm.gives ?_
    cases v <;> simp_all [Variable.Gives, Variable.name, overrideTexts]

/-- A field keeps its value if its variable says none. -/
theorem same_of_not_usable {v : Variable}
    (h : ∀ text, env v.name = some text → ¬ v.Usable text) :
    v.Same (applyEnvironment env s).1 s := by
  by_cases hv : v = .timeout
  · subst hv
    rcases applyEnvironment_cases env s with ⟨-, happly⟩ | ⟨text, n, htimeout, hn, -⟩ |
      ⟨text, -, -, happly⟩
    · rw [happly]
      exact rfl
    · exact absurd ⟨n, hn⟩ (h text htimeout)
    · rw [happly]
      exact rfl
  · have hunset : env v.name = none := by
      rw [Option.eq_none_iff_forall_ne_some]
      intro text hset
      exact h text hset (Variable.usable_of_ne hv text)
    refine (same_overrideTexts hv).trans ?_
    cases v <;> simp_all [Variable.Same, Variable.name, overrideTexts]

theorem sameElsewhere_applyEnvironment (env : Environment) (s : Settings) :
    SameElsewhere (applyEnvironment env s).1 s := by
  rcases applyEnvironment_cases env s with ⟨-, h⟩ | ⟨text, n, -, -, h⟩ | ⟨text, -, -, h⟩ <;>
    rw [h] <;> exact ⟨rfl, rfl, rfl, rfl⟩

/-! ### Laws of overriding -/

/-- What a variable does to its field depends on its own text only. -/
theorem same_of_name_eq {v : Variable} (h : env v.name = env' v.name) :
    v.Same (applyEnvironment env s).1 (applyEnvironment env' s).1 := by
  by_cases hgives : ∃ text, env v.name = some text ∧ v.Usable text
  · obtain ⟨text, hset, husable⟩ := hgives
    exact Variable.same_of_gives (gives_of_usable hset husable)
      (gives_of_usable (h ▸ hset) husable)
  · have hnone : ∀ text, env v.name = some text → ¬ v.Usable text := fun text hset husable ↦
      hgives ⟨text, hset, husable⟩
    exact (same_of_not_usable hnone).trans (same_of_not_usable (h ▸ hnone)).symm

theorem snd_applyEnvironment_congr (h : env Variable.timeout.name = env' Variable.timeout.name) :
    (applyEnvironment env s).2 = (applyEnvironment env' t).2 := by
  rw [Variable.name] at h
  rw [applyEnvironment, applyEnvironment, h]
  cases env' "EXECUTION_TIMEOUT" with
  | none => rfl
  | some text =>
    dsimp only
    cases Word.ofText? (Text.trimmed text) <;> rfl

/-- Overriding twice is overriding once. -/
theorem applyEnvironment_applyEnvironment (env : Environment) (s : Settings) :
    applyEnvironment env (applyEnvironment env s).1 = applyEnvironment env s := by
  refine Prod.ext (eq_of_same (fun v ↦ ?_) (sameElsewhere_applyEnvironment env _))
    (snd_applyEnvironment_congr rfl)
  by_cases hgives : ∃ text, env v.name = some text ∧ v.Usable text
  · obtain ⟨text, hset, husable⟩ := hgives
    exact Variable.same_of_gives (gives_of_usable hset husable) (gives_of_usable hset husable)
  · exact same_of_not_usable fun text hset husable ↦ hgives ⟨text, hset, husable⟩

/-- One environment over another, which is looked at where the first has nothing set. -/
def laidOver (upper lower : Environment) : Environment := fun name ↦ (upper name).or (lower name)

/-- Overriding from one environment and then from another is overriding from the second laid over
the first. -/
theorem applyEnvironment_laidOver {later : Environment} {u : Settings}
    (h : applyEnvironment env s = (t, none)) (hlater : applyEnvironment later t = (u, none)) :
    applyEnvironment (laidOver later env) s = (u, none) := by
  have husable {first : Environment} {r q : Settings}
      (hfirst : applyEnvironment first r = (q, none)) {v : Variable} {text : String}
      (hset : first v.name = some text) : v.Usable text := by
    by_cases hv : v = .timeout
    · subst hv
      exact snd_applyEnvironment_eq_none_iff.mp (congrArg Prod.snd hfirst) text hset
    · exact Variable.usable_of_ne hv text
  have helse : SameElsewhere (applyEnvironment (laidOver later env) s).1 u := by
    have ht := sameElsewhere_applyEnvironment env s
    have hu := sameElsewhere_applyEnvironment later t
    rw [h] at ht
    rw [hlater] at hu
    exact (sameElsewhere_applyEnvironment _ s).trans (hu.trans ht).symm
  refine Prod.ext (eq_of_same (fun v ↦ ?_) helse) (snd_applyEnvironment_eq_none_iff.mpr ?_)
  · cases hset : later v.name with
    | none =>
      have hlaid : laidOver later env v.name = env v.name := by rw [laidOver, hset, Option.none_or]
      have hkept : v.Same (applyEnvironment later t).1 t := same_of_not_usable (by simp [hset])
      have hfirst : v.Same (applyEnvironment (laidOver later env) s).1 (applyEnvironment env s).1 :=
        same_of_name_eq hlaid
      rw [hlater] at hkept
      rw [h] at hfirst
      exact hfirst.trans hkept.symm
    | some text =>
      have hlaid : laidOver later env v.name = some text := by rw [laidOver, hset, Option.some_or]
      have hgives := gives_of_usable (s := t) hset (husable hlater hset)
      rw [hlater] at hgives
      exact Variable.same_of_gives (gives_of_usable hlaid (husable hlater hset)) hgives
  · intro text hset
    rw [laidOver] at hset
    rcases Option.or_eq_some_iff.mp hset with hset | ⟨-, hset⟩
    · exact husable hlater hset
    · exact husable h hset

/-- When overriding fails, what it gives to which field, what it leaves as it was, and its laws: it
may be done twice, one environment after another is the second laid over the first, and a list of
extensions is read as it was written. -/
theorem overrides_compose (env : Environment) (s : Settings) :
    ((applyEnvironment env s).2 ≠ none ↔ ∃ text, env "EXECUTION_TIMEOUT" = some text ∧
      ∀ n, ¬ Word.Denotes (Text.trim text.toList) n) ∧
    (∀ (v : Variable) text, env v.name = some text → v.Usable text →
      v.Gives text (applyEnvironment env s).1) ∧
    ((applyEnvironment env s).2 ≠ none → Variable.timeout.Same (applyEnvironment env s).1 s ∧
      ∀ env' : Environment, (∀ v : Variable, v ≠ .timeout → env' v.name = env v.name) →
        ∀ v : Variable, v ≠ .timeout →
          v.Same (applyEnvironment env s).1 (applyEnvironment env' s).1) ∧
    (∀ v : Variable, env v.name = none → v.Same (applyEnvironment env s).1 s) ∧
    SameElsewhere (applyEnvironment env s).1 s ∧
    applyEnvironment env (applyEnvironment env s).1 = applyEnvironment env s ∧
    (∀ later t u, applyEnvironment env s = (t, none) → applyEnvironment later t = (u, none) →
      applyEnvironment (laidOver later env) s = (u, none)) ∧
    ∀ extensions, (∀ e ∈ extensions, Separable e) →
      env "FLEX_FILE_EXTENSIONS" = some (",".intercalate extensions) →
        (applyEnvironment env s).1.execution.fileExtensions = extensions := by
  have hfails : (applyEnvironment env s).2 ≠ none ↔
      ∃ text, env Variable.timeout.name = some text ∧ ¬ Variable.timeout.Usable text := by
    rw [ne_eq, snd_applyEnvironment_eq_none_iff]
    simp only [not_forall, exists_prop]
  refine ⟨?_, fun v text ↦ gives_of_usable, fun hfailed ↦ ⟨?_, fun env' hsame v hv ↦ ?_⟩,
    fun v hunset ↦ same_of_not_usable (by simp [hunset]), sameElsewhere_applyEnvironment env s,
    applyEnvironment_applyEnvironment env s, fun later t u ↦ applyEnvironment_laidOver,
    fun extensions hseparable hset ↦ ?_⟩
  · rw [hfails]
    simp only [Variable.Usable, not_exists, Variable.name]
  · obtain ⟨text, hset, hnot⟩ := hfails.mp hfailed
    refine same_of_not_usable fun other hother ↦ ?_
    rwa [← Option.some.inj (hset.symm.trans hother)]
  · exact same_of_name_eq (hsame v hv).symm
  · have hgives : Variable.extensions.Gives (",".intercalate extensions)
        (applyEnvironment env s).1 := gives_of_usable hset trivial
    exact hgives.trans (splitExtensions_intercalate hseparable)

end Settings

end FlexGate
