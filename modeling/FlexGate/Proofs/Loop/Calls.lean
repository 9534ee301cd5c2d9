import FlexGate.Proofs.Loop.Corrections
import FlexGate.Proofs.Text.Parentheses

/-!
# Calls in a bound, with the whole of their arguments

The search for a call looks for the first closing parenthesis. A whole call goes on to the one that
closes its argument (`WholeCall`). Both start at the same places: where a call is found in a
balanced bound there is a whole call (`exists_wholeCall`), and where a whole call stands that lies
in no other one, a call is found (`exists_mem_findAll_of_outermost`). They end at the same place
exactly when the argument holds no parenthesis, and otherwise the call that is found ends within the
argument (`stop_cases`).

The correction of a call stands where the call that is found ends. So the corrections of a bound
stand behind whole calls, and each outermost call keeps its argument and is followed by one, exactly
when no call that is corrected has a parenthesis in its argument (`closesCalls_iff`).
-/

set_option autoImplicit false
set_option relaxedAutoImplicit false

namespace FlexGate

theorem Cursor.eq_of_text_eq {c d : Cursor} (htext : c.text = d.text)
    (hposition : c.position = d.position) : c = d := by
  obtain ⟨behind, ahead⟩ := c
  obtain ⟨behind', ahead'⟩ := d
  have hlength : behind.reverse.length = behind'.reverse.length := by
    simpa [Cursor.position] using hposition
  obtain ⟨hbehind, hahead⟩ := List.append_inj htext hlength
  exact congrArg₂ Cursor.mk (List.reverse_injective hbehind) hahead

namespace LoopBound

open Pattern Shape
open Cursor (starts)

/-! ### Calls as they are written -/

/-- The builtins that give a number of elements. -/
def builtins : List String := ["length", "size"]

/-- A call of a builtin, with the blanks before its argument. -/
def call (name : String) (blanks argument : List Char) : List Char :=
  name.toList ++ blanks ++ '(' :: argument ++ [')']

theorem length_call (name : String) (blanks argument : List Char) :
    (call name blanks argument).length =
      name.toList.length + blanks.length + argument.length + 2 := by
  simp only [call, List.length_append, List.length_cons, List.length_nil]
  omega

theorem leadsWithWord_of_mem_builtins {name : String} (h : name ∈ builtins)
    (text : List Char) : Cursor.leadsWithWord (name.toList ++ text) = true := by
  have hname : name = "length" ∨ name = "size" := by simpa [builtins] using h
  rcases hname with rfl | rfl
  · exact (by decide : Text.isWord 'l' = true)
  · exact (by decide : Text.isWord 's' = true)

theorem mem_ends_oneOf_builtins {c d : Cursor} :
    d ∈ (oneOf [text "length", text "size"]).ends c ↔ ∃ name ∈ builtins, ∃ rest,
      c.ahead = name.toList ++ rest ∧ d = ⟨name.toList.reverse ++ c.behind, rest⟩ :=
  @mem_ends_oneOf_text builtins (List.cons_ne_nil _ _) c d

/-- The call that is read at a position goes to the first closing parenthesis. -/
theorem mem_ends_lengthCall {c d : Cursor} :
    d ∈ lengthCall.ends c ↔ Cursor.leadsWithWord c.behind = false ∧
      ∃ name ∈ builtins, ∃ blanks argument, (∀ x ∈ blanks, Text.isBlank x = true) ∧
        argument ≠ [] ∧ ')' ∉ argument ∧ c.ahead = call name blanks argument ++ d.ahead ∧
        d.behind = (call name blanks argument).reverse ++ c.behind := by
  simp only [lengthCall, Pattern.sequence, arguments1, some1, token, Shape.blanks, mem_ends_seq,
    mem_ends_edge, mem_ends_oneOf_builtins, mem_ends_many, mem_ends_char]
  constructor
  · rintro ⟨c, ⟨hedge, rfl⟩, _, ⟨name, hname, _, hahead, rfl⟩, _, ⟨blanks, _, rfl, hblanks, rfl⟩,
      _, ⟨_, _, rfl, hopen, rfl⟩, _, ⟨_, ⟨y, _, rfl, hy, rfl⟩, content, _, rfl, hcontent, rfl⟩,
      _, rest, rfl, hclose, rfl⟩
    obtain rfl := eq_of_beq hopen
    obtain rfl := eq_of_beq hclose
    have hbehind : Cursor.leadsWithWord c.behind = false := by
      simpa [Edge.holds, hahead, leadsWithWord_of_mem_builtins hname] using hedge
    refine ⟨hbehind, name, hname, blanks, y :: content, hblanks, List.cons_ne_nil y content, ?_, ?_,
      ?_⟩
    · intro hmem
      rcases List.mem_cons.mp hmem with rfl | hmem
      · exact absurd rfl (bne_iff_ne.mp hy)
      · exact absurd rfl (bne_iff_ne.mp (hcontent _ hmem))
    · rw [hahead]
      simp [call]
    · simp [call]
  · rintro ⟨hbehind, name, hname, blanks, argument, hblanks, hne, hargument, hahead, hd⟩
    obtain ⟨y, content, rfl⟩ := List.exists_cons_of_ne_nil hne
    obtain ⟨hy, hcontent⟩ : ')' ≠ y ∧ ')' ∉ content := by simpa using hargument
    refine ⟨c, ⟨?_, rfl⟩, _, ⟨name, hname, blanks ++ '(' :: y :: (content ++ ')' :: d.ahead), ?_,
      rfl⟩, _, ⟨blanks, _, rfl, hblanks, rfl⟩, _, ⟨'(', _, rfl, by decide, rfl⟩, _,
      ⟨_, ⟨y, _, rfl, bne_iff_ne.mpr (Ne.symm hy), rfl⟩, content, _, rfl, ?_, rfl⟩, ')', d.ahead,
      rfl, by decide, ?_⟩
    · rw [Edge.holds, hbehind, hahead, call, List.append_assoc, List.append_assoc,
        List.append_assoc, leadsWithWord_of_mem_builtins hname]
      rfl
    · rw [hahead]
      simp [call]
    · exact fun x hx ↦ bne_iff_ne.mpr (ne_of_mem_of_not_mem hx hcontent)
    · obtain ⟨dbehind, dahead⟩ := d
      dsimp only at hd
      rw [hd]
      simp [call]

theorem exists_call_of_callsLength {bound : List Char} (h : callsLength bound = true) :
    ∃ lead name blanks argument rest, bound = lead ++ call name blanks argument ++ rest ∧
      argument ≠ [] ∧ ')' ∉ argument := by
  obtain ⟨lead, x, ahead, d, hbound, hd⟩ := occursIn_iff.mp h
  obtain ⟨-, name, -, blanks, argument, -, hne, hclose, hahead, -⟩ := mem_ends_lengthCall.mp hd
  refine ⟨lead, name, blanks, argument, d.ahead, ?_, hne, hclose⟩
  rw [hbound, List.append_assoc]
  exact congrArg (lead ++ ·) hahead

/-- A call behind a character that ends a word is found, or one that reaches over it. -/
theorem callsLength_append_call {lead : List Char}
    (hedge : Cursor.leadsWithWord lead.reverse = false) {name : String} (hname : name ∈ builtins)
    {blanks argument : List Char} (hblanks : ∀ x ∈ blanks, Text.isBlank x = true)
    (hne : argument ≠ []) (hclose : ')' ∉ argument) (rest : List Char) :
    callsLength (lead ++ (call name blanks argument ++ rest)) = true := by
  have hmem : (⟨(call name blanks argument).reverse ++ lead.reverse, rest⟩ : Cursor) ∈
      lengthCall.ends ⟨lead.reverse, call name blanks argument ++ rest⟩ :=
    mem_ends_lengthCall.mpr ⟨hedge, name, hname, blanks, argument, hblanks, hne, hclose, rfl, rfl⟩
  exact occursIn_of_mem_ends (by simp [call]) hmem

/-- A call is written in one way only. -/
theorem eq_of_call_append {name name' : String} (hname : name ∈ builtins)
    (hname' : name' ∈ builtins) {blanks blanks' rest rest' : List Char}
    (hblanks : ∀ x ∈ blanks, Text.isBlank x = true)
    (hblanks' : ∀ x ∈ blanks', Text.isBlank x = true)
    (h : name.toList ++ blanks ++ '(' :: rest = name'.toList ++ blanks' ++ '(' :: rest') :
    name = name' ∧ blanks = blanks' ∧ rest = rest' := by
  have hsame : name = name' := by
    have hnames : name = "length" ∨ name = "size" := by simpa [builtins] using hname
    have hnames' : name' = "length" ∨ name' = "size" := by simpa [builtins] using hname'
    rcases hnames with rfl | rfl <;> rcases hnames' with rfl | rfl
    · rfl
    · simp at h
    · simp at h
    · rfl
  subst hsame
  have hnot (run : List Char) (hrun : ∀ x ∈ run, Text.isBlank x = true) : '(' ∉ run :=
    fun hmem ↦ absurd (hrun _ hmem) (by decide)
  rw [List.append_assoc, List.append_assoc] at h
  obtain ⟨heq, hrest⟩ := Text.eq_of_append_cons (hnot blanks hblanks) (hnot blanks' hblanks')
    (List.append_cancel_left h)
  exact ⟨rfl, heq, hrest⟩

/-! ### Whole calls -/

/-- A call in a bound, up to the parenthesis that closes its argument. -/
structure WholeCall (bound : List Char) where
  lead : List Char
  name : String
  blanks : List Char
  argument : List Char
  rest : List Char
  bound_eq : bound = lead ++ call name blanks argument ++ rest
  name_mem : name ∈ builtins
  lead_edge : Cursor.leadsWithWord lead.reverse = false
  blanks_blank : ∀ x ∈ blanks, Text.isBlank x = true
  argument_ne_nil : argument ≠ []
  balanced : Text.Balanced argument

namespace WholeCall

variable {bound : List Char}

/-- The call itself. -/
def text (c : WholeCall bound) : List Char := call c.name c.blanks c.argument

def start (c : WholeCall bound) : Nat := c.lead.length

/-- Position behind the parenthesis that closes the argument. -/
def stop (c : WholeCall bound) : Nat := c.start + c.text.length

/-- The position before the call. -/
def cursor (c : WholeCall bound) : Cursor := ⟨c.lead.reverse, c.text ++ c.rest⟩

/-- The call stands in no other one. -/
def Outermost (c : WholeCall bound) : Prop :=
  ∀ d : WholeCall bound, d.start < c.start → d.stop ≤ c.start

theorem text_cursor (c : WholeCall bound) : c.cursor.text = bound := by
  rw [Cursor.text, cursor, List.reverse_reverse, ← List.append_assoc]
  exact c.bound_eq.symm

theorem position_cursor (c : WholeCall bound) : c.cursor.position = c.start :=
  List.length_reverse

theorem cursor_eq_of_start_eq {c : WholeCall bound} {d : Cursor} (htext : d.text = bound)
    (hstart : c.start = d.position) : c.cursor = d :=
  Cursor.eq_of_text_eq (c.text_cursor.trans htext.symm) (c.position_cursor.trans hstart)

/-- Where a call is found it ends with the whole call, if the argument holds no parenthesis, and
within it otherwise. -/
theorem stop_cases (c : WholeCall bound) {m : Match} (hm : lengthCall.matchAt c.cursor = some m) :
    ('(' ∉ c.argument ∧ m.stop = c.stop) ∨ ('(' ∈ c.argument ∧ m.stop < c.stop) := by
  obtain ⟨-, name, hname, blanks, argument, hblanks, -, hclose, hahead, hbehind⟩ :=
    mem_ends_lengthCall.mp (last_mem_ends hm)
  have hstop : m.stop = c.start + (call name blanks argument).length := by
    rw [Match.stop, Span.stop, Cursor.position, hbehind, List.length_append, List.length_reverse,
      Nat.add_comm]
    exact congrArg (· + _) c.position_cursor
  have hwritten : c.name.toList ++ c.blanks ++ '(' :: (c.argument ++ ')' :: c.rest) =
      name.toList ++ blanks ++ '(' :: (argument ++ ')' :: m.span.last.ahead) := by
    simpa [cursor, text, call] using hahead
  obtain ⟨rfl, rfl, hargument⟩ :=
    eq_of_call_append c.name_mem hname c.blanks_blank hblanks hwritten
  rcases c.balanced.first_closing hargument hclose with ⟨hopen, rfl, -⟩ | ⟨hopen, hlt⟩
  · exact .inl ⟨hopen, hstop⟩
  · refine .inr ⟨hopen, ?_⟩
    rw [hstop, stop, text, length_call, length_call]
    omega

/-- A call can be read where a whole call starts. -/
theorem isSome_matchAt (c : WholeCall bound) : (lengthCall.matchAt c.cursor).isSome = true := by
  have hmem : ')' ∈ c.argument ++ ')' :: c.rest := by simp
  obtain ⟨first, after, hfirst, hclose⟩ := List.eq_append_cons_of_mem hmem
  have hne : first ≠ [] := by
    rintro rfl
    obtain ⟨x, argument, hargument⟩ := List.exists_cons_of_ne_nil c.argument_ne_nil
    rw [hargument] at hfirst
    exact c.balanced.head?_ne (by rw [hargument, (List.cons.inj hfirst).1]; rfl)
  refine matchAt_isSome_iff.mpr ⟨⟨(call c.name c.blanks first).reverse ++ c.lead.reverse, after⟩,
    mem_ends_lengthCall.mpr ⟨c.lead_edge, c.name, c.name_mem, c.blanks, first, c.blanks_blank, hne,
      hclose, ?_, rfl⟩⟩
  simp [cursor, text, call, hfirst]

end WholeCall

variable {bound : List Char}

/-- In a balanced bound, each call that is found is the start of a whole one. -/
theorem exists_wholeCall (h : Text.Balanced bound) {m : Match} (hm : m ∈ lengthCall.findAll bound) :
    ∃ c : WholeCall bound, c.start = m.start := by
  have hmatch := exists_matchAt_of_mem_findAllFrom hm
  have htext : m.span.first.text = bound := text_of_mem_findAllFrom hm
  obtain ⟨hedge, name, hname, blanks, found, hblanks, hne, hclose, hahead, -⟩ :=
    mem_ends_lengthCall.mp (last_mem_ends hmatch)
  have hbound : bound = m.span.first.behind.reverse ++ (name.toList ++ blanks) ++
      '(' :: (found ++ ')' :: m.span.last.ahead) := by
    rw [← htext, Cursor.text, hahead, call]
    simp
  obtain ⟨argument, rest, hrest, hbalanced⟩ := (hbound ▸ h).exists_closing
  have hargument : argument ≠ [] := by
    rintro rfl
    obtain ⟨x, found, rfl⟩ := List.exists_cons_of_ne_nil hne
    exact hclose ((List.cons.inj hrest).1 ▸ List.mem_cons_self)
  let c : WholeCall bound :=
    { lead := m.span.first.behind.reverse
      name := name
      blanks := blanks
      argument := argument
      rest := rest
      bound_eq := by rw [hbound, hrest, call]; simp
      name_mem := hname
      lead_edge := by rwa [List.reverse_reverse]
      blanks_blank := hblanks
      argument_ne_nil := hargument
      balanced := hbalanced }
  exact ⟨c, List.length_reverse⟩

theorem stop_cases_of_mem {m : Match} (hm : m ∈ lengthCall.findAll bound) {c : WholeCall bound}
    (hstart : c.start = m.start) :
    ('(' ∉ c.argument ∧ m.stop = c.stop) ∨ ('(' ∈ c.argument ∧ m.stop < c.stop) := by
  have htext : m.span.first.text = bound := text_of_mem_findAllFrom hm
  have hcursor : c.cursor = m.span.first := WholeCall.cursor_eq_of_start_eq htext hstart
  exact c.stop_cases (hcursor ▸ exists_matchAt_of_mem_findAllFrom hm)

/-- A call that stands in no other one is found. -/
theorem exists_mem_findAll_of_outermost (h : Text.Balanced bound) {c : WholeCall bound}
    (hc : c.Outermost) : ∃ m ∈ lengthCall.findAll bound, m.span.first = c.cursor := by
  have hstarts : c.cursor ∈ starts [] bound := by
    refine mem_starts_iff.mpr ⟨c.lead, ?_, (List.append_nil _).symm, ?_⟩
    · exact c.bound_eq.trans (List.append_assoc _ _ _)
    · simp [WholeCall.cursor, WholeCall.text, call]
  have hskip : ([] : List Char).length + 0 ≤ c.cursor.position := Nat.zero_le _
  obtain ⟨m, hm, hle, hlt⟩ :=
    exists_mem_findAllFrom lengthCall_consumes hstarts hskip c.isSome_matchAt
  refine ⟨m, hm, ?_⟩
  obtain ⟨d, hstart⟩ := exists_wholeCall h hm
  rw [c.position_cursor] at hle hlt
  rcases Nat.eq_or_lt_of_le hle with heq | hbefore
  · exact (WholeCall.cursor_eq_of_start_eq (text_of_mem_findAllFrom hm) heq.symm).symm
  · -- Then the call lies in the whole call that starts where `m` does.
    have hstop : m.stop ≤ d.stop := by
      rcases stop_cases_of_mem hm hstart with ⟨-, heq⟩ | ⟨-, hlt⟩
      · exact Nat.le_of_eq heq
      · exact Nat.le_of_lt hlt
    have hout : d.stop ≤ c.start := hc d (hstart.trans_lt hbefore)
    omega

/-! ### Corrections behind whole calls -/

/-- Corrections close whole calls: each stands behind the parenthesis that closes the argument of
the call that it is for, and so each call that lies in no other one keeps its text and is followed
by a correction. -/
structure ClosesCalls (bound : List Char) : Prop where
  behind_call : ∀ m ∈ lengthCall.findAll bound, ∀ c : WholeCall bound,
    c.start = m.start → c.stop = m.stop
  outermost : ∀ c : WholeCall bound, c.Outermost → adjust bound =
    insertAt correction (callEnds bound) 0 c.lead ++ c.text ++ correction ++
      insertBehind correction (callEnds bound) c.stop c.rest

/-- A call that ends with the whole call is left as it is and followed by a correction. -/
theorem adjust_of_stop_eq {c : WholeCall bound} {m : Match} (hm : m ∈ lengthCall.findAll bound)
    (hstart : m.start = c.start) (hstop : m.stop = c.stop) :
    adjust bound = insertAt correction (callEnds bound) 0 c.lead ++ c.text ++ correction ++
      insertBehind correction (callEnds bound) c.stop c.rest := by
  have hends : c.stop ∈ callEnds bound := hstop ▸ List.mem_map_of_mem hm
  -- No other call ends between the start of `m` and its end.
  have hapart : ∀ k ∈ callEnds bound, k ≤ c.start ∨ c.stop ≤ k := by
    intro k hk
    obtain ⟨n, hn, rfl⟩ := List.mem_map.mp hk
    have hread : n.start < n.stop :=
      start_lt_stop lengthCall_consumes (exists_matchAt_of_mem_findAllFrom hn)
    by_cases hnm : n = m
    · exact .inr (hnm ▸ Nat.le_of_eq hstop.symm)
    · rcases apart_of_mem_findAllFrom hn hm hnm with hle | hle <;> omega
  obtain ⟨inner, hinner⟩ : ∃ inner, c.text = inner ++ [')'] := ⟨_, rfl⟩
  have hlength : c.stop = c.start + inner.length + 1 := by
    rw [WholeCall.stop, hinner, List.length_append]
    rfl
  have hkept : insertBehind correction (callEnds bound) c.start inner = inner := by
    refine insertBehind_eq_self fun k hk hlt ↦ ?_
    have hcases := hapart k hk
    omega
  have hcall : insertBehind correction (callEnds bound) c.start c.text = c.text ++ correction := by
    rw [hinner, insertBehind_append, hkept, insertBehind, insertBehind, if_pos (hlength ▸ hends),
      List.append_nil, List.append_assoc, List.singleton_append]
  have hbound : insertBehind correction (callEnds bound) 0 bound =
      insertBehind correction (callEnds bound) 0 (c.lead ++ c.text ++ c.rest) :=
    congrArg _ c.bound_eq
  rw [adjust, insertAt_eq_append, hbound, insertBehind_append, insertBehind_append, Nat.zero_add,
    Nat.zero_add, List.length_append, insertAt_eq_append correction (callEnds bound) 0 c.lead]
  rw [show c.lead.length = c.start from rfl, hcall, WholeCall.stop]
  simp only [List.append_assoc]

/-- The correction of a call closes it exactly when the argument holds no parenthesis. -/
theorem closesCalls_iff (h : Text.Balanced bound) :
    ClosesCalls bound ↔ ∀ m ∈ lengthCall.findAll bound, ∀ c : WholeCall bound,
      c.start = m.start → '(' ∉ c.argument := by
  constructor
  · intro hcloses m hm c hstart
    have hstop := hcloses.behind_call m hm c hstart
    rcases stop_cases_of_mem hm hstart with ⟨hplain, -⟩ | ⟨-, hlt⟩
    · exact hplain
    · exact absurd hstop (Nat.ne_of_gt hlt)
  · intro hplain
    have hstop (m : Match) (hm : m ∈ lengthCall.findAll bound) (c : WholeCall bound)
        (hstart : c.start = m.start) : m.stop = c.stop := by
      rcases stop_cases_of_mem hm hstart with ⟨-, hstop⟩ | ⟨hopen, -⟩
      · exact hstop
      · exact absurd hopen (hplain m hm c hstart)
    constructor
    · intro m hm c hstart
      exact (hstop m hm c hstart).symm
    · intro c hc
      obtain ⟨m, hm, hfirst⟩ := exists_mem_findAll_of_outermost h hc
      have hstart : m.start = c.start := by
        rw [Match.start, Span.start, hfirst, c.position_cursor]
      exact adjust_of_stop_eq hm hstart (hstop m hm c hstart.symm)

end LoopBound

open LoopBound LoopHeader

/-- The first header of a mended line has the adjusted bound. -/
theorem exists_find?_line {line : List Char} {header : LoopHeader}
    (hh : find? line = some header) (hc : header.isCritical = true) :
    ∃ mended, find? (Repair.line line) = some mended ∧
      mended.trimmedBound = adjust header.trimmedBound := by
  obtain ⟨lead, before, after, rest, hd⟩ := exists_divides hh
  exact ⟨_, find?_line_of_critical hh hd hc, trimmedBound_mendedBetween hd hc⟩

/-- In a balanced bound, where each correction stands, when corrections close the calls that they
are for, and that a mended loop has the bound with these corrections. -/
theorem corrections_close_calls_iff {bound : List Char} (h : Text.Balanced bound) :
    (∀ m ∈ Shape.lengthCall.findAll bound, ∃ c : WholeCall bound, c.start = m.start ∧
      (('(' ∉ c.argument ∧ m.stop = c.stop) ∨ ('(' ∈ c.argument ∧ m.stop < c.stop))) ∧
    (ClosesCalls bound ↔ ∀ m ∈ Shape.lengthCall.findAll bound, ∀ c : WholeCall bound,
      c.start = m.start → '(' ∉ c.argument) ∧
    ∀ line header, find? line = some header → header.isCritical = true →
      header.trimmedBound = bound →
        ∃ mended, find? (Repair.line line) = some mended ∧ mended.trimmedBound = adjust bound := by
  refine ⟨fun m hm ↦ ?_, closesCalls_iff h, ?_⟩
  · obtain ⟨c, hstart⟩ := exists_wholeCall h hm
    exact ⟨c, hstart, stop_cases_of_mem hm hstart⟩
  · rintro line header hh hc rfl
    exact exists_find?_line hh hc

/-- A bound with a call that has blanks before its argument. -/
def spacedCall : List Char := "length (rows) * 2".toList

theorem corrections_close_calls_spacedCall :
    Text.Balanced spacedCall ∧ ClosesCalls spacedCall := by
  have hbalanced : Text.Balanced spacedCall := by decide
  refine ⟨hbalanced, (corrections_close_calls_iff hbalanced).2.1.mpr fun m _ c _ hopen ↦ ?_⟩
  -- The call itself has the only opening parenthesis of the bound.
  have hcount : spacedCall.count '(' = 1 := by decide
  have hargument : 0 < c.argument.count '(' := List.count_pos_iff.mpr hopen
  rw [c.bound_eq, call] at hcount
  simp only [List.count_append, List.count_cons_self] at hcount
  omega

/-- A loop up to the length of what a call returns. -/
def nestedCall : String := "karr i=0 l7d length(rows(n)) {
}"

/-- The correction stands within the argument of the call, and not behind the call. -/
theorem nestedCall_not_closed :
    Text.Balanced "length(rows(n))".toList ∧
    adjust "length(rows(n))".toList = "length(rows(n) - 1)".toList ∧
    Repair.mended nestedCall = "karr i=0 l7d length(rows(n) - 1) {
}" ∧
    ¬ ClosesCalls "length(rows(n))".toList := by
  have hbalanced : Text.Balanced "length(rows(n))".toList := by decide
  have hmended : Repair.source nestedCall.toList =
      "karr i=0 l7d length(rows(n) - 1) {
}".toList := by decide
  let c : WholeCall "length(rows(n))".toList :=
    { lead := []
      name := "length"
      blanks := []
      argument := "rows(n)".toList
      rest := []
      bound_eq := by decide
      name_mem := by decide
      lead_edge := rfl
      blanks_blank := fun x hx ↦ absurd hx List.not_mem_nil
      argument_ne_nil := by decide
      balanced := by decide }
  refine ⟨hbalanced, by decide, ?_, fun hcloses ↦ ?_⟩
  · rw [Repair.mended, hmended, String.ofList_toList]
  · have hfirst : ((Shape.lengthCall.findAll "length(rows(n))".toList).map Match.start) = [0] := by
      decide
    obtain ⟨m, hm, hstart⟩ : ∃ m ∈ Shape.lengthCall.findAll "length(rows(n))".toList,
        m.start = 0 := by
      have hmem : 0 ∈ (Shape.lengthCall.findAll "length(rows(n))".toList).map Match.start := by
        rw [hfirst]
        exact List.mem_singleton_self 0
      exact List.mem_map.mp hmem
    exact (closesCalls_iff hbalanced).mp hcloses m hm c hstart.symm (by decide)

end FlexGate
