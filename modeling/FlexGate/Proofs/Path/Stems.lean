import FlexGate.Proofs.Path.Segments
import FlexGate.Source.Plan
import Mathlib.Data.List.TakeWhile

/-!
# Names that start with a stem

A stem is the start of a name: it has no slash and is not made of points only. What a point and more
text behind a stem give as the extension is the same for every stem, even if that text has slashes
(`IsStem.extension?_append_congr`), and the case of letters carries over to the extension
(`extension?_lowerAscii`). An extension itself has neither points nor slashes
(`not_mem_of_extension?`).
-/

set_option autoImplicit false
set_option relaxedAutoImplicit false

namespace FlexGate

/-! ### The case of letters -/

theorem toLower_eq_iff {c d : Char} (hd : d.toNat < 65) : c.toLower = d ↔ c = d := by
  unfold Char.toLower
  split
  case isTrue h =>
    have hlow : 65 ≤ c.toNat := UInt32.le_iff_toNat_le.mp h.1
    have hhigh : c.toNat ≤ 90 := UInt32.le_iff_toNat_le.mp h.2
    have hlower : (c.val + 32).toNat = c.toNat + 32 := by
      rw [UInt32.toNat_add]
      exact Nat.mod_eq_of_lt (by change c.toNat + 32 < 2 ^ 32; omega)
    constructor
    · rintro rfl
      have hlt : (c.val + 32).toNat < 65 := hd
      omega
    · rintro rfl
      omega
  case isFalse => rfl

theorem toLower_eq_point_iff {c : Char} : c.toLower = '.' ↔ c = '.' := toLower_eq_iff (by decide)

theorem toLower_eq_slash_iff {c : Char} : c.toLower = '/' ↔ c = '/' := toLower_eq_iff (by decide)

theorem lowerAscii_append (a b : List Char) : lowerAscii (a ++ b) = lowerAscii a ++ lowerAscii b :=
  List.map_append

theorem mem_lowerAscii_iff {d : Char} (hd : d.toNat < 65) {text : List Char} :
    d ∈ lowerAscii text ↔ d ∈ text := by
  unfold lowerAscii
  rw [List.mem_map]
  simp only [toLower_eq_iff hd, exists_eq_right]

theorem lowerAscii_eq_iff {points : List Char} (h : ∀ d ∈ points, d.toNat < 65)
    {text : List Char} : lowerAscii text = points ↔ text = points := by
  induction points generalizing text with
  | nil => exact List.map_eq_nil_iff
  | cons d points ih =>
    cases text with
    | nil => simp [lowerAscii]
    | cons c text =>
      have hrest : lowerAscii text = points ↔ text = points :=
        ih fun d hd ↦ h d (List.mem_cons_of_mem _ hd)
      show c.toLower :: lowerAscii text = d :: points ↔ c :: text = d :: points
      rw [List.cons.injEq, List.cons.injEq, toLower_eq_iff (h d List.mem_cons_self), hrest]

namespace Path

/-! ### The name of a path -/

/-- The segments that say something. -/
def nonVoid (p : Path) : List (List Char) := (segments p).filter fun s ↦ !isVoid s

/-- The name that a path ends in is its last segment that says something, if this is no step up. -/
theorem fileName?_eq (p : Path) : fileName? p = (nonVoid p).getLast?.filter (· ≠ ['.', '.']) := by
  have hsteps : steps p = (nonVoid p).map Component.ofSegment := rfl
  rcases List.eq_nil_or_concat (nonVoid p) with hnil | ⟨front, last, hconcat⟩
  · have hcomponents : components p = [.root] ∨ components p = [.here] ∨ components p = [] := by
      rw [components_eq, hsteps, hnil]
      split
      · exact .inl rfl
      · split
        · exact .inr (.inl rfl)
        · exact .inr (.inr rfl)
    rw [hnil]
    rcases hcomponents with h | h | h <;> (rw [fileName?, h]; rfl)
  · rw [List.concat_eq_append] at hconcat
    have hlast : (components p).getLast? = some (Component.ofSegment last) := by
      rw [components_eq, hsteps, hconcat, List.map_append]
      split
      · rw [← List.cons_append]
        exact List.getLast?_concat
      · split
        · rw [← List.cons_append]
          exact List.getLast?_concat
        · exact List.getLast?_concat
    rw [fileName?, hlast, hconcat, List.getLast?_concat]
    by_cases hup : last = ['.', '.'] <;> simp [Component.ofSegment, hup, Option.filter_some]

theorem not_mem_of_mem_segments {p : Path} {segment : List Char} (h : segment ∈ segments p) :
    '/' ∉ segment := by
  induction p generalizing segment with
  | nil =>
    obtain rfl := List.mem_singleton.mp h
    exact List.not_mem_nil
  | cons c p ih =>
    by_cases hc : c = '/'
    · rw [segments, if_pos hc] at h
      rcases List.mem_cons.mp h with rfl | h
      · exact List.not_mem_nil
      · exact ih h
    · obtain ⟨first, others, hsegments⟩ := List.exists_cons_of_ne_nil (segments_ne_nil p)
      simp only [segments, if_neg hc, hsegments] at h ih
      rcases List.mem_cons.mp h with rfl | h
      · have hfirst : '/' ∉ first := ih List.mem_cons_self
        exact mt List.mem_cons.mp (not_or.mpr ⟨Ne.symm hc, hfirst⟩)
      · exact ih (List.mem_cons_of_mem _ h)

theorem not_mem_of_fileName? {p : Path} {name : List Char} (h : fileName? p = some name) :
    '/' ∉ name := by
  rw [fileName?_eq, Option.filter_eq_some_iff] at h
  exact not_mem_of_mem_segments (List.mem_of_mem_filter (List.mem_of_getLast? h.1))

theorem extensionOf?_of_not_mem {name : List Char} (h : '.' ∉ name) : extensionOf? name = none := by
  have hup : name ≠ ['.', '.'] := by
    rintro rfl
    exact h List.mem_cons_self
  have hnone : name.reverse.dropWhile (fun c ↦ decide (c ≠ '.')) = [] := by
    refine List.dropWhile_eq_nil_iff.mpr fun c hc ↦ ?_
    have hne : c ≠ '.' := ne_of_mem_of_not_mem (List.mem_reverse.mp hc) h
    simpa using hne
  rw [extensionOf?, if_neg hup, hnone]

theorem of_extensionOf?_eq_some {name ext : List Char} (h : extensionOf? name = some ext) :
    '.' ∉ ext ∧ ∃ front, name = front ++ '.' :: ext := by
  by_cases hpoint : '.' ∈ name
  · obtain ⟨front, last, rfl, hlast⟩ := exists_last_of_mem hpoint
    by_cases hup : front ++ '.' :: last = ['.', '.']
    · rw [extensionOf?, if_pos hup] at h
      cases h
    · rw [extensionOf?_of_point hlast hup] at h
      split at h
      · cases h
      · obtain rfl := Option.some.inj h
        exact ⟨hlast, front, rfl⟩
  · rw [extensionOf?_of_not_mem hpoint] at h
    cases h

/-- There are neither points nor slashes in an extension. -/
theorem not_mem_of_extension? {p : Path} {ext : List Char} (h : extension? p = some ext) :
    '.' ∉ ext ∧ '/' ∉ ext := by
  obtain ⟨name, hname, hext⟩ := Option.bind_eq_some_iff.mp h
  obtain ⟨hpoint, front, rfl⟩ := of_extensionOf?_eq_some hext
  have hslash := not_mem_of_fileName? hname
  exact ⟨hpoint, fun hmem ↦ hslash (by simp [hmem])⟩

/-! ### Paths in lower case -/

theorem segments_lowerAscii (p : Path) : segments (lowerAscii p) = (segments p).map lowerAscii := by
  induction p with
  | nil => rfl
  | cons c p ih =>
    show segments (c.toLower :: lowerAscii p) = _
    obtain ⟨first, others, hsegments⟩ := List.exists_cons_of_ne_nil (segments_ne_nil p)
    rw [hsegments, List.map_cons] at ih
    simp only [segments, toLower_eq_slash_iff, ih, hsegments]
    split <;> rfl

theorem isVoid_lowerAscii (segment : List Char) : isVoid (lowerAscii segment) = isVoid segment := by
  have hhere : lowerAscii segment = ['.'] ↔ segment = ['.'] := lowerAscii_eq_iff (by simp)
  have hnil : lowerAscii segment = [] ↔ segment = [] := lowerAscii_eq_iff (by simp)
  rw [Bool.eq_iff_iff]
  simp [isVoid, hhere, hnil]

theorem fileName?_lowerAscii (p : Path) :
    fileName? (lowerAscii p) = (fileName? p).map lowerAscii := by
  have hnonVoid : nonVoid (lowerAscii p) = (nonVoid p).map lowerAscii := by
    rw [nonVoid, nonVoid, segments_lowerAscii, List.filter_map]
    simp only [Function.comp_def, isVoid_lowerAscii]
  rw [fileName?_eq, fileName?_eq, hnonVoid, List.getLast?_map, Option.filter_map]
  have hup (name : List Char) : lowerAscii name = ['.', '.'] ↔ name = ['.', '.'] :=
    lowerAscii_eq_iff (by simp)
  simp only [Function.comp_def, ne_eq, hup]

theorem extensionOf?_lowerAscii (name : List Char) :
    extensionOf? (lowerAscii name) = (extensionOf? name).map lowerAscii := by
  have hmem {text : List Char} : '.' ∈ lowerAscii text ↔ '.' ∈ text :=
    mem_lowerAscii_iff (by decide)
  by_cases hpoint : '.' ∈ name
  · obtain ⟨front, last, rfl, hlast⟩ := exists_last_of_mem hpoint
    have hlower : lowerAscii (front ++ '.' :: last) = lowerAscii front ++ '.' :: lowerAscii last :=
      lowerAscii_append front ('.' :: last)
    have hup : lowerAscii (front ++ '.' :: last) = ['.', '.'] ↔ front ++ '.' :: last = ['.', '.'] :=
      lowerAscii_eq_iff (by simp)
    by_cases h : front ++ '.' :: last = ['.', '.']
    · rw [h]
      rfl
    · rw [hlower] at hup ⊢
      rw [extensionOf?_of_point hlast h, extensionOf?_of_point (mt hmem.mp hlast) (mt hup.mp h)]
      by_cases hfront : front = []
      · rw [hfront]
        rfl
      · have hfront' : lowerAscii front ≠ [] := mt List.map_eq_nil_iff.mp hfront
        rw [if_neg hfront, if_neg hfront']
        rfl
  · rw [extensionOf?_of_not_mem hpoint, extensionOf?_of_not_mem (mt hmem.mp hpoint)]
    rfl

theorem extension?_lowerAscii (p : Path) :
    extension? (lowerAscii p) = (extension? p).map lowerAscii := by
  rw [extension?, extension?, fileName?_lowerAscii]
  cases fileName? p with
  | none => rfl
  | some name => exact extensionOf?_lowerAscii name

/-! ### Stems -/

theorem segments_append_of_not_mem {stem : List Char} (h : '/' ∉ stem) {p : Path}
    {first : List Char} {others : List (List Char)} (hp : segments p = first :: others) :
    segments (stem ++ p) = (stem ++ first) :: others := by
  induction stem with
  | nil => exact hp
  | cons c stem ih =>
    obtain ⟨hc, hstem⟩ := not_or.mp (mt List.mem_cons.mpr h)
    rw [List.cons_append, segments, if_neg (Ne.symm hc), ih hstem]
    rfl

/-- The start of a file name: without a slash, and not made of points only. -/
structure IsStem (stem : List Char) : Prop where
  noSlash : '/' ∉ stem
  notPoints : ∃ c ∈ stem, c ≠ '.'

namespace IsStem

variable {stem other : List Char}

theorem append (h : IsStem stem) {more : List Char} (hmore : '/' ∉ more) :
    IsStem (stem ++ more) where
  noSlash := List.not_mem_append h.noSlash hmore
  notPoints := h.notPoints.imp fun _ ⟨hc, hne⟩ ↦ ⟨List.mem_append_left more hc, hne⟩

theorem lowerAscii (h : IsStem stem) : IsStem (lowerAscii stem) where
  noSlash := mt (mem_lowerAscii_iff (by decide)).mp h.noSlash
  notPoints := by
    obtain ⟨c, hc, hne⟩ := h.notPoints
    exact ⟨c.toLower, List.mem_map_of_mem hc, mt toLower_eq_point_iff.mp hne⟩

theorem ne_nil (h : IsStem stem) : stem ≠ [] := by
  obtain ⟨c, hc, -⟩ := h.notPoints
  exact List.ne_nil_of_mem hc

/-- No name that starts with a stem is void or a step up. -/
theorem append_ne (h : IsStem stem) (more : List Char) {points : List Char}
    (hpoints : ∀ c ∈ points, c = '.') : stem ++ more ≠ points := by
  rintro rfl
  obtain ⟨c, hc, hne⟩ := h.notPoints
  exact hne (hpoints c (List.mem_append_left more hc))

theorem isVoid_append (h : IsStem stem) (more : List Char) : isVoid (stem ++ more) = false := by
  have hhere : stem ++ more ≠ ['.'] := h.append_ne more (by simp)
  simp [isVoid, h.ne_nil, hhere]

theorem append_ne_up (h : IsStem stem) (more : List Char) : stem ++ more ≠ ['.', '.'] :=
  h.append_ne more (by simp)

/-- Behind a stem, the last point of a name is followed by its extension. -/
theorem extensionOf?_append (h : IsStem stem) (front : List Char) {ext : List Char}
    (hpoint : '.' ∉ ext) : extensionOf? (stem ++ (front ++ '.' :: ext)) = some ext := by
  have hup := h.append_ne_up (front ++ '.' :: ext)
  rw [← List.append_assoc] at hup ⊢
  rw [extensionOf?_of_point hpoint hup, if_neg]
  simp [h.ne_nil]

/-- The name is what begins with the stem, unless text behind a slash goes on and says something. -/
theorem fileName?_append (h : IsStem stem) {p : Path} {first : List Char}
    {others : List (List Char)} (hp : segments p = first :: others) :
    fileName? (stem ++ p) =
      (some ((others.filter fun s ↦ !isVoid s).getLast?.getD (stem ++ first))).filter
        (· ≠ ['.', '.']) := by
  have hnonVoid : nonVoid (stem ++ p) = (stem ++ first) :: others.filter fun s ↦ !isVoid s := by
    rw [nonVoid, segments_append_of_not_mem h.noSlash hp, List.filter_cons_of_pos]
    simp [h.isVoid_append]
  rw [fileName?_eq, hnonVoid, List.getLast?_cons]

/-- What a point and more text give as the extension does not depend on the stem before them. -/
theorem extension?_append_congr (h : IsStem stem) (hother : IsStem other) (rest : List Char) :
    extension? (stem ++ '.' :: rest) = extension? (other ++ '.' :: rest) := by
  obtain ⟨first, others, hrest⟩ := List.exists_cons_of_ne_nil (segments_ne_nil rest)
  have hsegments : segments ('.' :: rest) = ('.' :: first) :: others := by
    simp [segments, hrest]
  have hmem : '.' ∈ '.' :: first := List.mem_cons_self
  obtain ⟨front, ext, hfirst, hpoint⟩ := exists_last_of_mem hmem
  rw [extension?, extension?, h.fileName?_append hsegments, hother.fileName?_append hsegments]
  cases (others.filter fun s ↦ !isVoid s).getLast? with
  | some last => rfl
  | none =>
    rw [Option.getD_none, Option.getD_none, Option.filter_some, Option.filter_some,
      if_pos (by simpa using h.append_ne_up _), if_pos (by simpa using hother.append_ne_up _),
      Option.bind_some, Option.bind_some, hfirst, h.extensionOf?_append front hpoint,
      hother.extensionOf?_append front hpoint]

theorem extension?_append (h : IsStem stem) {ext : List Char} (hpoint : '.' ∉ ext)
    (hslash : '/' ∉ ext) : extension? (stem ++ '.' :: ext) = some ext := by
  have hsegments : segments ('.' :: ext) = ['.' :: ext] :=
    segments_of_not_mem (by simpa using hslash)
  have hname : fileName? (stem ++ '.' :: ext) = some (stem ++ '.' :: ext) := by
    rw [h.fileName?_append hsegments]
    simpa [Option.filter_some] using h.append_ne_up ('.' :: ext)
  rw [extension?, hname]
  exact h.extensionOf?_append [] hpoint

end IsStem

end Path

end FlexGate
