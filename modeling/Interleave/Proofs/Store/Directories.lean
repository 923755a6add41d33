import Interleave.Store

/-!
# Making directories

Making the directories above a path adds directories to a store and leaves its files as they are
(`Store.Extends`); no directory is made where there is a file. So every path that leads to a file leads
there afterwards. Where the directories above a path are there already, none is made.

Results:
* `extends_of_makeParents`: what making directories does to a store.
* `makeParents_of_writable`: a file that may be written needs no directories.
* `makeParents_put`: what is in a file does not matter to the directories.
-/
namespace Interleave

namespace Store

variable {s t u : Store} {path : String} {place other here goal : Place} {parts : List String}
  {bytes : ByteArray}

/-! ## More directories -/

/-- `t` is `s` with more directories, none of them in the place of a file. -/
def Extends (s t : Store) : Prop :=
  ∃ made, t = { s with directories := made ++ s.directories } ∧ ∀ place ∈ made, s.file? place = none

theorem Extends.refl (s : Store) : s.Extends s := ⟨[], rfl, List.forall_mem_nil _⟩

theorem Extends.file? (h : s.Extends t) (place : Place) : t.file? place = s.file? place := by
  obtain ⟨made, rfl, -⟩ := h
  rfl

theorem Extends.drains (h : s.Extends t) : t.drains = s.drains := by
  obtain ⟨made, rfl, -⟩ := h
  rfl

theorem Extends.within (h : s.Extends t) : s.Within t := by
  obtain ⟨made, rfl, -⟩ := h
  refine ⟨rfl, fun place hplace => ?_⟩
  unfold isDirectory at hplace ⊢
  rw [List.contains_append]
  grind

theorem Extends.trans (h : s.Extends t) (h' : t.Extends u) : s.Extends u := by
  have hfile := h.file?
  obtain ⟨made, rfl, hmade⟩ := h
  obtain ⟨made', rfl, hmade'⟩ := h'
  refine ⟨made' ++ made, by rw [List.append_assoc], ?_⟩
  intro place hplace
  rcases List.mem_append.1 hplace with hplace | hplace
  · rw [← hfile]
    exact hmade' place hplace
  · exact hmade place hplace

/-- No directory is made in the place of a file. -/
theorem Extends.isDirectory (h : s.Extends t) (hfile : (s.file? place).isSome) :
    t.isDirectory place = s.isDirectory place := by
  obtain ⟨made, rfl, hmade⟩ := h
  have hother : made.contains place = false := by
    rw [Bool.eq_false_iff, Ne, List.contains_iff_mem]
    intro hplace
    rw [hmade place hplace] at hfile
    cases hfile
  unfold Store.isDirectory
  rw [List.contains_append, hother, Bool.false_or]

/-- A path leads to the file that it led to before. -/
theorem Extends.writable (h : s.Extends t) (hwritable : s.writable path = .ok place)
    (hfile : (s.file? place).isSome) : t.writable path = .ok place := by
  obtain ⟨-, -, -, -, hfree, -⟩ := writable_eq_ok_iff.1 hwritable
  exact h.within.writable hwritable ((h.isDirectory hfile).trans hfree)

theorem Extends.writable_put (h : s.Extends t) (hwritable : s.writable path = .ok place)
    (hfile : (s.file? place).isSome) (other : Place) (bytes : ByteArray) :
    (t.put other bytes).writable path = .ok place :=
  (t.sameTree_put other bytes).writable (h.writable hwritable hfile)

/-- What is written to another file afterwards leaves a file as it was. -/
theorem Extends.read_put (h : s.Extends t) (hwritable : s.writable path = .ok place)
    (hfile : (s.file? place).isSome) {index : String} (hindex : t.writable index = .ok other)
    (hapart : (t.put other bytes).writable path ≠ (t.put other bytes).writable index) :
    (t.put other bytes).read path = s.read path := by
  have hkept := h.writable_put hwritable hfile other bytes
  have hother : place ≠ other := by
    intro heq
    rw [hkept, (t.sameTree_put other bytes).writable hindex, heq] at hapart
    exact hapart rfl
  rw [read_of_writable hkept, read_of_writable hwritable, file?_put_of_ne t bytes hother, h.file?]

theorem extends_of_makeDirectories (h : s.makeDirectories here parts = .ok t) : s.Extends t := by
  fun_induction Store.makeDirectories s here parts with
  | case1 => cases h; exact .refl _
  | case2 s here parts ih => exact ih h
  | case3 s here parts _ ih => exact ih h
  | case4 => cases h
  | case5 s here part parts _ _ _ next _ ih => exact ih h
  | case6 => cases h
  | case7 s here part parts _ _ _ next _ hnone ih =>
    refine Extends.trans ⟨[next], rfl, ?_⟩ (ih h)
    simpa using hnone

theorem extends_of_makeParents (h : s.makeParents path = .ok t) : s.Extends t :=
  extends_of_makeDirectories h

/-! ## Directories that are there -/

theorem makeDirectories_of_follow (h : s.follow here parts = .ok goal) :
    s.makeDirectories here parts = .ok s := by
  fun_induction Store.follow s here parts with
  | case1 => rfl
  | case2 here parts ih => simpa [makeDirectories] using ih h
  | case3 here parts _ ih => simpa [makeDirectories] using ih h
  | case4 => cases h
  | case5 here part parts hhere hup hlong next hnext ih =>
    rw [makeDirectories, if_neg hhere, if_neg hup, if_neg hlong]
    dsimp only
    rw [if_pos hnext]
    exact ih h
  | case6 => cases h
  | case7 => cases h

/-- Parts that stay where they are make no directory. -/
theorem makeDirectories_filter (s : Store) (here : Place) (parts : List String) :
    s.makeDirectories here (parts.filter (· ≠ ".")) = s.makeDirectories here parts := by
  induction parts generalizing s here with
  | nil => rfl
  | cons part parts ih =>
    by_cases hhere : part = "."
    · rw [List.filter_cons_of_neg (by simpa using hhere), makeDirectories, if_pos hhere]
      exact ih s here
    · rw [List.filter_cons_of_pos (by simpa using hhere)]
      simp only [makeDirectories, ih]

/-- The directories above a file are those that its path is followed through. -/
theorem makeParents_eq {before : List String} {name : String}
    (hparts : Path.parts path = before ++ [name]) (hname : name ≠ ".") :
    s.makeParents path = s.makeDirectories (s.start path) before := by
  have hkept : [name].filter (· ≠ ".") = [name] := by simpa using hname
  cases before with
  | nil => rw [makeParents, Path.components, hparts]; rfl
  | cons first before =>
    have habove : (Path.components path).dropLast = first :: before.filter (· ≠ ".") := by
      rw [Path.components, hparts, List.cons_append]
      dsimp only
      rw [List.filter_append, hkept, ← List.cons_append, List.dropLast_concat]
    -- the first part stays in any case, so the filter is put in front of it on both sides
    rw [makeParents, habove, ← makeDirectories_filter, List.filter_cons, List.filter_filter,
      ← makeDirectories_filter s (s.start path) (first :: before), List.filter_cons]
    simp only [Bool.and_self]

/-- A file that may be written needs no directories. -/
theorem makeParents_of_writable (h : s.writable path = .ok place) : s.makeParents path = .ok s := by
  obtain ⟨above, name, hlocate, -, -, -, -⟩ := writable_eq_ok_iff.1 h
  unfold locate at hlocate
  split at hlocate
  · cases hlocate
  split at hlocate
  · cases hlocate
  split at hlocate
  · split at hlocate <;> cases hlocate
  rename_i last hlast
  split at hlocate
  · cases hs : s.follow (s.start path) (Path.parts path) <;> rw [hs] at hlocate <;> cases hlocate
  rename_i hname
  rw [not_or] at hname
  obtain ⟨before, hparts⟩ := List.getLast?_eq_some_iff.1 hlast
  rw [hparts, List.dropLast_concat] at hlocate
  rw [makeParents_eq hparts hname.1]
  cases hs : s.follow (s.start path) before with
  | error fault => rw [hs] at hlocate; cases hlocate
  | ok goal => exact makeDirectories_of_follow hs

/-! ## Directories and what files hold -/

/-- Writing makes the one file that is written. -/
theorem isSome_file?_put (s : Store) (place other : Place) (bytes : ByteArray) :
    ((s.put place bytes).file? other).isSome = true ↔ other = place ∨ (s.file? other).isSome := by
  by_cases hother : other = place
  · subst hother
    by_cases hdrain : other ∈ s.drains
    · simp [put, file?, hdrain]
    · simp [file?_put bytes hdrain]
  · simp [file?_put_of_ne s bytes hother, hother]

theorem makeDirectories_put (h : (s.file? place).isSome) :
    (s.put place bytes).makeDirectories here parts =
      (s.makeDirectories here parts).map (·.put place bytes) := by
  fun_induction Store.makeDirectories s here parts with
  | case1 => rfl
  | case2 s here parts ih => simpa [makeDirectories] using ih h
  | case3 s here parts _ ih => simpa [makeDirectories] using ih h
  | case4 s here part parts hhere hup hlong =>
    rw [makeDirectories, if_neg hhere, if_neg hup, if_pos hlong]
    rfl
  | case5 s here part parts hhere hup hlong next hnext ih =>
    rw [makeDirectories, if_neg hhere, if_neg hup, if_neg hlong]
    dsimp only
    rw [isDirectory_put, if_pos hnext]
    exact ih h
  | case6 s here part parts hhere hup hlong next hnext hsome =>
    have hsome' := (isSome_file?_put s place next bytes).2 (.inr hsome)
    rw [makeDirectories, if_neg hhere, if_neg hup, if_neg hlong]
    dsimp only
    rw [isDirectory_put, if_neg hnext, if_pos hsome']
    rfl
  | case7 s here part parts hhere hup hlong next hnext hnone ih =>
    have hnone' : ¬ ((s.put place bytes).file? next).isSome = true := by
      rw [isSome_file?_put]
      intro hsome
      rcases hsome with heq | hsome
      · exact hnone (heq ▸ h)
      · exact hnone hsome
    have hmade : { s.put place bytes with directories := next :: (s.put place bytes).directories } =
        { s with directories := next :: s.directories }.put place bytes := by
      unfold put
      split <;> rfl
    rw [makeDirectories, if_neg hhere, if_neg hup, if_neg hlong]
    dsimp only
    rw [isDirectory_put, if_neg hnext, if_neg hnone', hmade]
    exact ih h

/-- What is in a file does not matter to the directories. -/
theorem makeParents_put (h : (s.file? place).isSome) : (s.put place bytes).makeParents path =
    (s.makeParents path).map (·.put place bytes) := by
  unfold makeParents
  rw [(sameTree_put s place bytes).within.start_eq]
  exact makeDirectories_put h

end Store

end Interleave
