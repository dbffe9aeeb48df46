import PapeSdk.AsciiBytes

/-!
Paths with slashes, cleaned of empty elements, single dots and every parent
step that can be taken. Joining a plain file name to a directory always gives
the file of that name in the cleaned directory.
-/

namespace PapeSdk.FilePaths

open BlockModes AsciiBytes

/-- A cleaned path, its last element first. -/
structure Path where
  rooted : Bool
  trail : List Bytes
  deriving DecidableEq

namespace Path

/-- What one element does to the path before it. -/
def step (rooted : Bool) (trail : List Bytes) (part : Bytes) : List Bytes :=
  if part = [] ∨ part = [dot] then trail
  else if part = [dot, dot] then
    match trail with
    | [] => if rooted then [] else [part]
    | top :: rest => if top = part then part :: trail else rest
  else part :: trail

def isAbs (text : Bytes) : Bool := text.head? == some slash

def clean (text : Bytes) : Path where
  rooted := isAbs text
  trail := (text.splitOn slash).foldl (step (isAbs text)) []

/-- Empty elements are left out before joining. -/
def join (dir name : Bytes) : Path :=
  if dir = [] then clean name
  else if name = [] then clean dir
  else clean (dir ++ slash :: name)

/-- A cleaned path read from inside another. -/
def append (base path : Path) : Path where
  rooted := base.rooted
  trail := path.trail.reverse.foldl (step base.rooted) base.trail

/-- The file of the given name in a directory. -/
def child (dir : Path) (name : Bytes) : Path := ⟨dir.rooted, name :: dir.trail⟩

def parent (path : Path) : Path := ⟨path.rooted, path.trail.tail⟩

@[simp] theorem rooted_child (dir : Path) (name : Bytes) :
    (dir.child name).rooted = dir.rooted := rfl

end Path

/-- A name that is one element of a path and stays where it is put. -/
structure Plain (name : Bytes) : Prop where
  nonempty : name ≠ []
  not_dot : name ≠ [dot]
  not_dots : name ≠ [dot, dot]
  no_slash : slash ∉ name

instance (name : Bytes) : Decidable (Plain name) :=
  decidable_of_iff (name ≠ [] ∧ name ≠ [dot] ∧ name ≠ [dot, dot] ∧ slash ∉ name)
    ⟨fun ⟨h1, h2, h3, h4⟩ => ⟨h1, h2, h3, h4⟩, fun h => ⟨h.1, h.2, h.3, h.4⟩⟩

namespace Path

theorem step_plain {name : Bytes} (h : Plain name) (rooted : Bool) (trail : List Bytes) :
    step rooted trail name = name :: trail := by
  unfold step
  rw [if_neg (not_or.mpr ⟨h.nonempty, h.not_dot⟩), if_neg h.not_dots]

theorem join_plain {dir name : Bytes} (hdir : dir ≠ []) (h : Plain name) :
    join dir name = (clean dir).child name := by
  have habs : isAbs (dir ++ slash :: name) = isAbs dir := by
    cases dir with
    | nil => exact absurd rfl hdir
    | cons b rest => rfl
  have hsplit : (dir ++ slash :: name).splitOn slash = dir.splitOn slash ++ [name] := by
    rw [List.splitOn_append_cons_self, List.splitOn_eq_singleton h.no_slash]
  rw [join, if_neg hdir, if_neg h.nonempty]
  simp only [clean, habs, hsplit, List.foldl_append, List.foldl_cons, List.foldl_nil, step_plain h]
  rfl

theorem append_child {name : Bytes} (h : Plain name) (base dir : Path) :
    base.append (dir.child name) = (base.append dir).child name := by
  simp only [append, child, List.reverse_cons, List.foldl_append, List.foldl_cons, List.foldl_nil,
    step_plain h]

/-- The path as it is written. -/
def text (path : Path) : Bytes :=
  if path.trail = [] then (if path.rooted then [slash] else [dot])
  else (if path.rooted then [slash] else []) ++ [slash].intercalate path.trail.reverse

theorem mem_splitOn {x : UInt8} {text part : Bytes} (hpart : part ∈ text.splitOn x) :
    ∀ b ∈ part, b ∈ text ∧ b ≠ x := by
  induction text generalizing part with
  | nil =>
    rw [List.splitOn_nil, List.mem_singleton] at hpart
    rw [hpart]
    intro b hb
    cases hb
  | cons c rest ih =>
    intro b hb
    rw [List.splitOn_cons_eq_if_modifyHead] at hpart
    split at hpart
    · rcases List.mem_cons.mp hpart with rfl | hrest
      · cases hb
      · exact ⟨List.mem_cons_of_mem _ (ih hrest b hb).1, (ih hrest b hb).2⟩
    · next hc =>
      obtain ⟨first, others, hsplit⟩ :=
        List.exists_cons_of_ne_nil (List.splitOn_ne_nil x rest)
      rw [hsplit] at ih hpart
      rcases List.mem_cons.mp hpart with rfl | hothers
      · rcases List.mem_cons.mp hb with rfl | hfirst
        · exact ⟨List.mem_cons_self, by simpa using hc⟩
        · exact ⟨List.mem_cons_of_mem _ (ih List.mem_cons_self b hfirst).1,
            (ih List.mem_cons_self b hfirst).2⟩
      · exact ⟨List.mem_cons_of_mem _ (ih (List.mem_cons_of_mem _ hothers) b hb).1,
          (ih (List.mem_cons_of_mem _ hothers) b hb).2⟩

theorem mem_intercalate {x b : UInt8} {parts : List Bytes} (h : b ∈ [x].intercalate parts) :
    b = x ∨ ∃ part ∈ parts, b ∈ part := by
  induction parts with
  | nil => cases h
  | cons part rest ih =>
    cases rest with
    | nil =>
      rw [List.intercalate_singleton] at h
      exact Or.inr ⟨part, List.mem_cons_self, h⟩
    | cons next rest =>
      rw [List.intercalate_cons_cons, List.mem_append, List.mem_append, List.mem_singleton] at h
      rcases h with (hpart | rfl) | hrest
      · exact Or.inr ⟨part, List.mem_cons_self, hpart⟩
      · exact Or.inl rfl
      · rcases ih hrest with hx | ⟨p, hp, hb⟩
        · exact Or.inl hx
        · exact Or.inr ⟨p, List.mem_cons_of_mem _ hp, hb⟩

/-- Plain elements behind steps to parent directories. -/
def Normal (trail : List Bytes) : Prop :=
  ∃ plain k, trail = plain ++ List.replicate k [dot, dot] ∧ ∀ part ∈ plain, Plain part

theorem Normal.step {trail : List Bytes} {part : Bytes} (h : Normal trail) (hpart : slash ∉ part) :
    Normal (step false trail part) := by
  obtain ⟨plain, k, rfl, hplain⟩ := h
  unfold Path.step
  split
  · exact ⟨plain, k, rfl, hplain⟩
  next hnot =>
  split
  · next hdots =>
    cases plain with
    | nil =>
      refine ⟨[], k + 1, ?_, fun _ h => nomatch h⟩
      cases k with
      | zero => simp [hdots]
      | succ k => simp [hdots, List.replicate_succ]
    | cons top plain =>
      have htop := hplain top List.mem_cons_self
      refine ⟨plain, k, ?_, fun p hp => hplain p (List.mem_cons_of_mem _ hp)⟩
      rw [List.cons_append]
      dsimp only
      rw [if_neg (hdots ▸ htop.not_dots)]
  · next hdots =>
    rw [not_or] at hnot
    refine ⟨part :: plain, k, rfl, ?_⟩
    intro p hp
    rcases List.mem_cons.mp hp with rfl | hold
    · exact ⟨hnot.1, hnot.2, hdots, hpart⟩
    · exact hplain p hold

theorem normal_clean {text : Bytes} (h : isAbs text = false) : Normal (clean text).trail := by
  have hfold : ∀ (parts : List Bytes) (trail : List Bytes), (∀ part ∈ parts, slash ∉ part) →
      Normal trail → Normal (parts.foldl (step false) trail) := by
    intro parts
    induction parts with
    | nil => exact fun trail _ htrail => htrail
    | cons part rest ih =>
      intro trail hparts htrail
      exact ih _ (fun p hp => hparts p (List.mem_cons_of_mem _ hp))
        (htrail.step (hparts part List.mem_cons_self))
  simp only [clean, h]
  refine hfold _ [] (fun part hpart hslash => ?_) ⟨[], 0, rfl, fun _ hnil => nomatch hnil⟩
  exact (mem_splitOn hpart slash hslash).2 rfl

theorem mem_step {rooted : Bool} {trail : List Bytes} {part p : Bytes}
    (h : p ∈ step rooted trail part) : p ∈ trail ∨ p = part := by
  unfold step at h
  split at h
  · exact Or.inl h
  split at h
  · split at h
    · split at h
      · cases h
      · exact Or.inr (List.mem_singleton.mp h)
    · split at h
      · rcases List.mem_cons.mp h with hsame | hold
        · exact Or.inr hsame
        · exact Or.inl hold
      · exact Or.inl (List.mem_cons_of_mem _ h)
  · rcases List.mem_cons.mp h with hsame | hold
    · exact Or.inr hsame
    · exact Or.inl hold

/-- Cleaning puts no element together. -/
theorem mem_clean {text part : Bytes} (h : part ∈ (clean text).trail) :
    part ∈ text.splitOn slash := by
  have hfold : ∀ (parts : List Bytes) (trail : List Bytes),
      part ∈ parts.foldl (step (isAbs text)) trail → part ∈ trail ∨ part ∈ parts := by
    intro parts
    induction parts with
    | nil => exact fun trail hmem => Or.inl hmem
    | cons first rest ih =>
      intro trail hmem
      rcases ih _ hmem with hstep | hrest
      · rcases mem_step hstep with htrail | hsame
        · exact Or.inl htrail
        · exact Or.inr (hsame ▸ List.mem_cons_self)
      · exact Or.inr (List.mem_cons_of_mem _ hrest)
  rcases hfold _ [] h with hnil | hmem
  · cases hnil
  · exact hmem

theorem mem_text_clean {text : Bytes} {b : UInt8} (h : b ∈ (clean text).text) :
    b = slash ∨ b = dot ∨ b ∈ text := by
  unfold Path.text at h
  split at h
  · split at h
    · exact Or.inl (List.mem_singleton.mp h)
    · exact Or.inr (Or.inl (List.mem_singleton.mp h))
  · rcases List.mem_append.mp h with hroot | hparts
    · split at hroot
      · exact Or.inl (List.mem_singleton.mp hroot)
      · cases hroot
    · rcases mem_intercalate hparts with hslash | ⟨part, hpart, hb⟩
      · exact Or.inl hslash
      · exact Or.inr (Or.inr (mem_splitOn (mem_clean (List.mem_reverse.mp hpart)) b hb).1)

/-- A cleaned path that does not lead out of the directory is made of plain elements. -/
theorem clean_inside {text : Bytes} (habs : isAbs text = false) (hdot : (clean text).text ≠ [dot])
    (hdots : (clean text).text ≠ [dot, dot]) (hup : ¬ [dot, dot, slash] <+: (clean text).text) :
    (clean text).trail ≠ [] ∧ (∀ part ∈ (clean text).trail, Plain part) ∧
      (clean text).text.splitOn slash = (clean text).trail.reverse := by
  have hrooted : (clean text).rooted = false := habs
  have hne : (clean text).trail ≠ [] := by
    intro hnil
    apply hdot
    rw [Path.text, if_pos hnil, hrooted]
    rfl
  have htext : (clean text).text = [slash].intercalate (clean text).trail.reverse := by
    rw [Path.text, if_neg hne, hrooted]
    rfl
  obtain ⟨plain, k, htrail, hplain⟩ := normal_clean habs
  have hk : k = 0 := by
    cases k with
    | zero => rfl
    | succ k =>
      rw [htrail, List.reverse_append, List.reverse_replicate, List.replicate_succ,
        List.cons_append] at htext
      cases hrest : List.replicate k [dot, dot] ++ plain.reverse with
      | nil =>
        rw [hrest, List.intercalate_singleton] at htext
        exact absurd htext hdots
      | cons next rest =>
        rw [hrest, List.intercalate_cons_cons] at htext
        refine absurd ?_ hup
        rw [htext]
        exact List.prefix_append _ _
  subst hk
  rw [List.replicate_zero, List.append_nil] at htrail
  rw [htext, htrail]
  rw [htrail] at hne
  refine ⟨hne, hplain, List.splitOn_intercalate slash ?_ (by simpa using hne)⟩
  intro part hpart
  exact (hplain part (List.mem_reverse.mp hpart)).no_slash

/-- Where the elements of a name lead from a directory. -/
def descend (dir : Path) (name : Bytes) : Path where
  rooted := dir.rooted
  trail := (name.splitOn slash).foldl (step dir.rooted) dir.trail

/-- Without parent steps every element counts that is neither empty nor a dot. -/
theorem foldl_step {rooted : Bool} {parts : List Bytes} (h : [dot, dot] ∉ parts)
    (trail : List Bytes) : parts.foldl (step rooted) trail =
      (parts.filter fun part => part ≠ [] ∧ part ≠ [dot]).reverse ++ trail := by
  induction parts generalizing trail with
  | nil => rfl
  | cons part rest ih =>
    rw [List.mem_cons, not_or] at h
    rw [List.foldl_cons, ih h.2]
    by_cases hskip : part = [] ∨ part = [dot]
    · have hkeep : ¬ (part ≠ [] ∧ part ≠ [dot]) := by
        rintro ⟨hnil, hdot⟩
        exact hskip.elim hnil hdot
      have hstep : step rooted trail part = trail := if_pos hskip
      rw [hstep, List.filter_cons, if_neg (by simpa using hkeep)]
    · have hkeep : part ≠ [] ∧ part ≠ [dot] := not_or.mp hskip
      have hstep : step rooted trail part = part :: trail :=
        (if_neg hskip).trans (if_neg (Ne.symm h.1))
      rw [hstep, List.filter_cons, if_pos (by simpa using hkeep), List.reverse_cons,
        List.append_assoc]
      rfl

theorem foldl_step_plain {rooted : Bool} {parts : List Bytes} (h : ∀ part ∈ parts, Plain part)
    (trail : List Bytes) : parts.foldl (step rooted) trail = parts.reverse ++ trail := by
  have hkeep : (parts.filter fun part => part ≠ [] ∧ part ≠ [dot]) = parts := by
    apply List.filter_eq_self.mpr
    intro part hpart
    simpa using ⟨(h part hpart).nonempty, (h part hpart).not_dot⟩
  rw [foldl_step (fun hmem => (h _ hmem).not_dots rfl), hkeep]

theorem intercalate_append {x : UInt8} {xs ys : List Bytes} (hxs : xs ≠ []) (hys : ys ≠ []) :
    [x].intercalate (xs ++ ys) = [x].intercalate xs ++ x :: [x].intercalate ys := by
  induction xs with
  | nil => exact absurd rfl hxs
  | cons first rest ih =>
    cases rest with
    | nil =>
      obtain ⟨second, others, rfl⟩ := List.exists_cons_of_ne_nil hys
      rw [List.singleton_append, List.intercalate_cons_cons, List.intercalate_singleton,
        List.append_assoc]
      rfl
    | cons next rest =>
      have hrest := ih (List.cons_ne_nil _ _)
      rw [List.cons_append] at hrest
      rw [List.cons_append, List.cons_append, List.intercalate_cons_cons, hrest,
        List.intercalate_cons_cons]
      simp only [List.append_assoc]

theorem text_of_rooted {path : Path} (h : path.rooted = true) :
    path.text = slash :: [slash].intercalate path.trail.reverse := by
  unfold text
  rw [h]
  split
  · next hnil =>
    rw [hnil]
    rfl
  · rfl

/-- Below a directory the text begins with that of the directory and a slash. -/
theorem text_below {dir path : Path} {trail : List Bytes} (hdir : dir.rooted = true)
    (hpath : path.rooted = true) (hnonempty : dir.trail ≠ []) (htrail : trail ≠ [])
    (h : path.trail = trail ++ dir.trail) :
    path.text = dir.text ++ slash :: [slash].intercalate trail.reverse := by
  rw [text_of_rooted hdir, text_of_rooted hpath, h, List.reverse_append,
    intercalate_append (by simpa using hnonempty) (by simpa using htrail), List.cons_append]

end Path

end PapeSdk.FilePaths
