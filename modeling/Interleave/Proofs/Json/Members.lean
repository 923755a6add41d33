import Interleave.Proofs.Json.Records

/-!
# Members left out and members put in

A record whose fields all have defaults is read from an object that lacks some of them (`without`) and has
further members between those that are left (`PaddedMembers`). A member of another name is not read, so what
a slot gives is the field if it was not left out, and the default otherwise.

Results:
* `membersWithout_filter`: which members of a name are left.
* `PaddedMembers.withDefault`, `PaddedMembers.withDefault_same`: the value of one field.
-/
namespace Interleave.Json

variable {deleted names : List String} {name : String} {ms ns : List (String × Json)}

/-! ## Members left out -/

mutual

/-- A value without the members of the names `deleted`, in it and in the objects that are its members. -/
def without (deleted : List String) : Json → Json
  | object members => object (membersWithout deleted members)
  | value => value

def membersWithout (deleted : List String) : List (String × Json) → List (String × Json)
  | [] => []
  | (key, value) :: ms =>
    if key ∈ deleted then membersWithout deleted ms
    else (key, without deleted value) :: membersWithout deleted ms

end

/-- The members of a name are all left, or none is. -/
theorem membersWithout_filter : (membersWithout deleted ms).filter (·.1 = name) =
    if name ∈ deleted then [] else (ms.filter (·.1 = name)).map fun m => (m.1, m.2.without deleted) := by
  induction ms with
  | nil => simp [membersWithout]
  | cons m ms ih =>
    obtain ⟨key, value⟩ := m
    rw [membersWithout]
    by_cases hkey : key = name
    · subst hkey
      by_cases hdeleted : key ∈ deleted
      · rw [if_pos hdeleted, ih, if_pos hdeleted, if_pos hdeleted]
      · rw [if_neg hdeleted] at ih ⊢
        simp [ih, hdeleted]
    · split <;> simp [ih, hkey]

mutual

theorem without_nil : ∀ j : Json, j.without [] = j
  | object ms => by rw [without, membersWithout_nil]
  | null | bool _ | number _ | string _ | array _ => by rw [without]; nofun

theorem membersWithout_nil : ∀ ms : List (String × Json), membersWithout [] ms = ms
  | [] => rfl
  | (key, value) :: ms => by
    rw [membersWithout, if_neg List.not_mem_nil, without_nil, membersWithout_nil]

end

theorem without_real (x : Float) : (real x).without deleted = real x := by
  unfold real
  split <;> rfl

/-! ## Members put in -/

/-- The members `ns` are the members `ms` with members of other names than `names` anywhere between them.
What two members of one key have to do with each other is for `same` to say. -/
inductive PaddedMembers (names : List String) (same : String → Json → Json → Prop) :
    List (String × Json) → List (String × Json) → Prop
  | nil : PaddedMembers names same [] []
  | known {key : String} {value value' : Json} {ms ns : List (String × Json)} :
      same key value value' → PaddedMembers names same ms ns →
        PaddedMembers names same ((key, value) :: ms) ((key, value') :: ns)
  | unknown {key : String} {value : Json} {ms ns : List (String × Json)} :
      key ∉ names → PaddedMembers names same ms ns → PaddedMembers names same ms ((key, value) :: ns)

/-- An object with further members. -/
inductive Padded (names : List String) (same : String → Json → Json → Prop) : Json → Json → Prop
  | object {ms ns : List (String × Json)} :
      PaddedMembers names same ms ns → Padded names same (object ms) (object ns)

namespace PaddedMembers

variable {same : String → Json → Json → Prop}

/-- Nothing comes between the members of a known name. -/
theorem filter (h : PaddedMembers names same ms ns) (hname : name ∈ names) :
    List.Forall₂ (fun m n => same name m.2 n.2) (ms.filter (·.1 = name)) (ns.filter (·.1 = name)) := by
  induction h with
  | nil => exact .nil
  | @known key value value' ms ns hsame _ ih =>
    by_cases hkey : key = name
    · subst hkey
      simpa using ⟨hsame, ih⟩
    · simpa [hkey] using ih
  | @unknown key value ms ns hkey _ ih =>
    have hne : key ≠ name := by
      rintro rfl
      exact hkey hname
    simpa [hne] using ih

theorem slot?_of_filter {found : List (String × Json)} (h : ns.filter (·.1 = name) = found) :
    Syntax.slot? (ns.map fun m => (m.1, m.2.spelled)) name =
      match found with
      | [] => some .absent
      | [m] => some (.given m.2.spelled)
      | _ => none := by
  rw [Syntax.slot?, List.filter_map]
  simp only [Function.comp_def, h]
  match found with
  | [] | [_] | _ :: _ :: _ => rfl

/-- The value of a field that may have been left out. -/
theorem withDefault {α : Type} {x : α} {value : Json}
    (h : PaddedMembers names same (membersWithout deleted ms) ns) (name : String)
    (read : Syntax → Option α) (default : α) (hname : name ∈ names)
    (hfield : ms.filter (·.1 = name) = [(name, value)])
    (hread : ∀ w, same name (value.without deleted) w → read w.spelled = some x) :
    ∃ slot, Syntax.slot? (ns.map fun m => (m.1, m.2.spelled)) name = some slot ∧
      slot.withDefault read default = some (if name ∈ deleted then default else x) := by
  have hfound := h.filter hname
  rw [membersWithout_filter, hfield] at hfound
  by_cases hdeleted : name ∈ deleted
  · rw [if_pos hdeleted, List.forall₂_nil_left_iff] at hfound
    refine ⟨.absent, slot?_of_filter hfound, ?_⟩
    rw [if_pos hdeleted]
    rfl
  · rw [if_neg hdeleted, List.map_singleton, List.forall₂_cons_left_iff] at hfound
    obtain ⟨m, rest, hsame, hrest, hns⟩ := hfound
    rw [List.forall₂_nil_left_iff] at hrest
    subst hrest
    refine ⟨.given m.2.spelled, slot?_of_filter hns, ?_⟩
    rw [if_neg hdeleted]
    exact hread m.2 hsame

/-- The same for a field that is there unchanged, if it is. -/
theorem withDefault_same {α : Type} {x : α} {value : Json}
    (h : PaddedMembers names (fun _ => Eq) (membersWithout deleted ms) ns) (name : String)
    (read : Syntax → Option α) (default : α) (hname : name ∈ names)
    (hfield : ms.filter (·.1 = name) = [(name, value)])
    (hread : read (value.without deleted).spelled = some x) :
    ∃ slot, Syntax.slot? (ns.map fun m => (m.1, m.2.spelled)) name = some slot ∧
      slot.withDefault read default = some (if name ∈ deleted then default else x) :=
  h.withDefault name read default hname hfield fun _ hw => hw ▸ hread

/-- No member put in. -/
theorem refl (hsame : ∀ m ∈ ms, same m.1 m.2 m.2) : PaddedMembers names same ms ms := by
  induction ms with
  | nil => exact .nil
  | cons m ms ih =>
    rw [List.forall_mem_cons] at hsame
    exact .known hsame.1 (ih hsame.2)

end PaddedMembers

end Interleave.Json
