import FlexGate.Path
import Mathlib.Data.List.Basic

/-!
# The segments of a path

A slash between two texts separates their segments (`segments_append_slash`), and a text without a
slash that is put at the end of a path goes to its last segment (`exists_segments_append`). So what
a path ends in is told from its last character: behind a slash, or behind nothing, an extension that
is put there is the whole name, and so is none (`extension?_append`). What a relative path adds to a
base are its steps (`steps_join`).
-/

set_option autoImplicit false
set_option relaxedAutoImplicit false

namespace FlexGate.Path

/-! ### Slashes -/

theorem segments_append_slash (a b : Path) :
    segments (a ++ '/' :: b) = segments a ++ segments b := by
  induction a with
  | nil => simp [segments]
  | cons c a ih =>
    by_cases hc : c = '/'
    · simp [segments, hc, ih]
    · obtain ⟨first, others, hsegments⟩ := List.exists_cons_of_ne_nil (segments_ne_nil a)
      simp [segments, hc, ih, hsegments]

theorem intercalate_segments (p : Path) : ['/'].intercalate (segments p) = p := by
  induction p with
  | nil => rfl
  | cons c p ih =>
    obtain ⟨first, others, hsegments⟩ := List.exists_cons_of_ne_nil (segments_ne_nil p)
    rw [hsegments] at ih
    by_cases hc : c = '/'
    · simp [segments, hc, hsegments, ih]
    · cases others <;> simp_all [segments]

/-- A path whose segments fall in two parts has a slash between them. -/
theorem exists_of_segments_eq_append {p : Path} {first rest : List (List Char)}
    (h : segments p = first ++ rest) (hfirst : first ≠ []) (hrest : rest ≠ []) :
    ∃ a b, p = a ++ '/' :: b ∧ segments a = first ∧ segments b = rest := by
  obtain ⟨segment, more, rfl⟩ := List.exists_cons_of_ne_nil hfirst
  clear hfirst
  induction p generalizing segment more with
  | nil =>
    obtain ⟨-, hnil⟩ := List.cons.inj h
    exact absurd (List.append_eq_nil_iff.mp hnil.symm).2 hrest
  | cons c p ih =>
    by_cases hc : c = '/'
    · subst hc
      rw [segments, if_pos rfl] at h
      obtain ⟨rfl, hmore⟩ := List.cons.inj h
      cases more with
      | nil => exact ⟨[], p, rfl, rfl, hmore⟩
      | cons segment more =>
        obtain ⟨a, b, rfl, ha, hb⟩ := ih segment more hmore
        exact ⟨'/' :: a, b, rfl, by simp [segments, ha], hb⟩
    · obtain ⟨start, others, hsegments⟩ := List.exists_cons_of_ne_nil (segments_ne_nil p)
      simp only [segments, if_neg hc, hsegments] at h
      obtain ⟨rfl, rfl⟩ := List.cons.inj h
      obtain ⟨a, b, rfl, ha, hb⟩ := ih start more hsegments
      exact ⟨c :: a, b, rfl, by simp [segments, hc, ha], hb⟩

theorem segments_of_not_mem {p : Path} (h : '/' ∉ p) : segments p = [p] := by
  induction p with
  | nil => rfl
  | cons c p ih =>
    obtain ⟨hc, hp⟩ := not_or.mp (mt List.mem_cons.mpr h)
    rw [segments, if_neg (Ne.symm hc), ih hp]

/-! ### The end of a path -/

/-- Up to the last place of a character, and behind it. -/
theorem exists_last_of_mem {c : Char} {p : List Char} (h : c ∈ p) :
    ∃ front last, p = front ++ c :: last ∧ c ∉ last := by
  obtain ⟨last, front, hreverse, hlast⟩ := List.eq_append_cons_of_mem (List.mem_reverse.mpr h)
  refine ⟨front.reverse, last.reverse, ?_, by simpa using hlast⟩
  rw [← List.reverse_reverse p, hreverse, List.reverse_append, List.reverse_cons,
    List.append_assoc, List.singleton_append]

/-- What is put at the end of a path goes to its last segment, which is empty behind a slash and in
the empty path only. -/
theorem exists_segments_append (p : Path) :
    ∃ before last, (last = [] ↔ p = [] ∨ p.getLast? = some '/') ∧
      ∀ more, '/' ∉ more → segments (p ++ more) = before ++ [last ++ more] := by
  by_cases hp : '/' ∈ p
  · obtain ⟨front, last, rfl, hlast⟩ := exists_last_of_mem hp
    refine ⟨segments front, last, ⟨?_, ?_⟩, fun more hmore ↦ ?_⟩
    · rintro rfl
      exact .inr List.getLast?_concat
    · rintro (hnil | hslash)
      · exact absurd hnil (by simp)
      · by_contra hne
        rw [List.getLast?_append_cons, List.getLast?_cons_of_ne_nil hne] at hslash
        exact hlast (List.mem_of_getLast? hslash)
    · rw [List.append_assoc, List.cons_append, segments_append_slash,
        segments_of_not_mem (List.not_mem_append hlast hmore)]
  · refine ⟨[], p, ⟨.inl, fun h ↦ h.resolve_right fun hslash ↦ ?_⟩, fun more hmore ↦ ?_⟩
    · exact hp (List.mem_of_getLast? hslash)
    · exact segments_of_not_mem (List.not_mem_append hp hmore)

/-! ### The name and the extension -/

/-- The steps of a path, wherever they start. -/
def steps (p : Path) : List Component :=
  ((segments p).filter fun s ↦ !isVoid s).map Component.ofSegment

theorem components_eq (p : Path) :
    components p =
      if isAbsolute p then .root :: steps p
      else if (segments p).head? = some ['.'] then .here :: steps p
      else steps p :=
  rfl

theorem fileName?_of_segments {p : Path} {before : List (List Char)} {last : List Char}
    (h : segments p = before ++ [last]) (hvoid : isVoid last = false) (hup : last ≠ ['.', '.']) :
    fileName? p = some last := by
  have hlast : (steps p).getLast? = some (.named last) := by
    simp [steps, h, List.filter_append, hvoid, Component.ofSegment, hup]
  obtain ⟨front, hfront⟩ := List.getLast?_eq_some_iff.mp hlast
  have hcomponents : (components p).getLast? = some (.named last) := by
    rw [components_eq]
    split
    · rw [hfront, ← List.cons_append, List.getLast?_concat]
    · split
      · rw [hfront, ← List.cons_append, List.getLast?_concat]
      · exact hlast
  rw [fileName?, hcomponents]

/-- A name with an extension does not end in a point. -/
theorem getLast?_append_ne {ext : List Char} (hpoint : '.' ∉ ext) (hne : ext ≠ [])
    (name : List Char) : (name ++ '.' :: ext).getLast? ≠ some '.' := by
  rw [List.getLast?_append_cons, List.getLast?_cons_of_ne_nil hne]
  exact fun h ↦ hpoint (List.mem_of_getLast? h)

theorem isVoid_append {ext : List Char} (hpoint : '.' ∉ ext) (hne : ext ≠ []) (name : List Char) :
    isVoid (name ++ '.' :: ext) = false := by
  have hhere : name ++ '.' :: ext ≠ ['.'] := fun h ↦
    getLast?_append_ne hpoint hne name (h ▸ rfl)
  simp [isVoid, hhere]

theorem append_ne_up {ext : List Char} (hpoint : '.' ∉ ext) (hne : ext ≠ []) (name : List Char) :
    name ++ '.' :: ext ≠ ['.', '.'] :=
  fun h ↦ getLast?_append_ne hpoint hne name (h ▸ rfl)

/-- What follows the last point of a name is its extension, if the point is not the first character
of the name and the name is no step up. -/
theorem extensionOf?_of_point {name ext : List Char} (hpoint : '.' ∉ ext)
    (hup : name ++ '.' :: ext ≠ ['.', '.']) :
    extensionOf? (name ++ '.' :: ext) = if name = [] then none else some ext := by
  have hreverse : (name ++ '.' :: ext).reverse = ext.reverse ++ '.' :: name.reverse := by simp
  have hall : ∀ c ∈ ext.reverse, decide (c ≠ '.') = true := by
    intro c hc
    have hne : c ≠ '.' := ne_of_mem_of_not_mem (List.mem_reverse.mp hc) hpoint
    simpa using hne
  rw [extensionOf?, if_neg hup, hreverse, List.takeWhile_append_of_pos hall,
    List.dropWhile_append_of_pos hall]
  rcases List.eq_nil_or_concat name with rfl | ⟨front, c, rfl⟩
  · rfl
  · simp

theorem extensionOf?_append {ext : List Char} (hpoint : '.' ∉ ext) (hne : ext ≠ [])
    (name : List Char) :
    extensionOf? (name ++ '.' :: ext) = if name = [] then none else some ext :=
  extensionOf?_of_point hpoint (append_ne_up hpoint hne name)

/-- The name of a path with an extension at its end is what stood behind the last slash, with the
extension. -/
theorem exists_fileName?_append {ext : List Char} (hpoint : '.' ∉ ext) (hslash : '/' ∉ ext)
    (hne : ext ≠ []) (p : Path) :
    ∃ last, (last = [] ↔ p = [] ∨ p.getLast? = some '/') ∧
      fileName? (p ++ '.' :: ext) = some (last ++ '.' :: ext) := by
  obtain ⟨before, last, hlast, hsegments⟩ := exists_segments_append p
  refine ⟨last, hlast, fileName?_of_segments (hsegments ('.' :: ext) ?_)
    (isVoid_append hpoint hne last) (append_ne_up hpoint hne last)⟩
  simp [hslash]

/-- An extension that is put at the end of a path is its extension, unless nothing or a slash stands
before it. -/
theorem extension?_append {ext : List Char} (hpoint : '.' ∉ ext) (hslash : '/' ∉ ext)
    (hne : ext ≠ []) (p : Path) :
    extension? (p ++ '.' :: ext) =
      if p = [] ∨ p.getLast? = some '/' then none else some ext := by
  obtain ⟨last, hlast, hname⟩ := exists_fileName?_append hpoint hslash hne p
  rw [extension?, hname, Option.bind_some, extensionOf?_append hpoint hne]
  exact if_congr hlast rfl rfl

/-! ### Joining -/

theorem steps_join {p : Path} (h : isAbsolute p = false) (base : Path) :
    steps (join base p) = steps base ++ steps p := by
  rw [join, if_neg (by simp [h])]
  split
  case isTrue hend =>
    rcases hend with rfl | hslash
    · rfl
    · obtain ⟨front, rfl⟩ := List.getLast?_eq_some_iff.mp hslash
      rw [List.append_assoc, List.singleton_append, steps, steps, steps, segments_append_slash,
        segments_append_slash]
      simp [segments, isVoid]
  case isFalse =>
    rw [steps, segments_append_slash, List.filter_append, List.map_append]
    rfl

theorem isAbsolute_join {p : Path} (h : isAbsolute p = false) (base : Path) :
    isAbsolute (join base p) = isAbsolute base := by
  rw [join, if_neg (by simp [h])]
  cases base with
  | nil => exact h
  | cons c base => split <;> rfl

theorem isAbsolute_append {p : Path} (hp : p ≠ []) (more : Path) :
    isAbsolute (p ++ more) = isAbsolute p := by
  rw [isAbsolute, isAbsolute, List.head?_append_of_ne_nil p hp]

theorem join_append {p : Path} (hp : p ≠ []) (base more : Path) :
    join base (p ++ more) = join base p ++ more := by
  rw [join, join, isAbsolute_append hp]
  split
  · rfl
  · split <;> simp

theorem join_ne_nil {p : Path} (hp : p ≠ []) (base : Path) : join base p ≠ [] := by
  rw [join]
  split
  · exact hp
  · split <;> simp [hp]

theorem getLast?_join {p : Path} (hp : p ≠ []) (base : Path) :
    (join base p).getLast? = p.getLast? := by
  rw [join]
  split
  · rfl
  · split
    · exact List.getLast?_append_of_ne_nil base hp
    · rw [List.getLast?_append_cons, List.getLast?_cons_of_ne_nil hp]

end FlexGate.Path
