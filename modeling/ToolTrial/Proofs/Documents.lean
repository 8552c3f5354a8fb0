import ToolTrial.Proofs.Attempt
import ToolTrial.Proofs.Pattern
import ToolTrial.Store.Workspace

/-!
Documents in memory.  A document put at a path is found there and at no other place; where no
document was before, all others stay.
-/

set_option autoImplicit false
set_option relaxedAutoImplicit false

namespace ToolTrial.Documents

theorem lookup_insert (path q : Path) (document : Json) (docs : Documents) :
    lookup q (insert path document docs) =
      if path.same q then some document else lookup q docs := by
  induction docs with
  | nil => rfl
  | cons e docs ih =>
    obtain ⟨p, j⟩ := e
    rw [insert]
    split
    · rename_i here
      have steps : p.same q = path.same q := by
        rw [Bool.eq_iff_iff, Path.same_iff, Path.same_iff, (Path.same_iff p path).mp here]
      rw [lookup, lookup, steps]
      split <;> rfl
    · rename_i elsewhere
      split
      · rfl
      · rw [lookup, lookup, ih]
        by_cases there : p.same q = true
        · have apart : ¬ path.same q = true := by
            rw [Path.same_iff] at elsewhere there ⊢
            exact fun same => elsewhere (there.trans same.symm)
          rw [if_pos there, if_pos there, if_neg apart]
        · rw [if_neg there, if_neg there]

theorem insert_perm {path : Path} {docs : Documents} (absent : lookup path docs = none)
    (document : Json) : (insert path document docs).Perm ((path, document) :: docs) := by
  induction docs with
  | nil => exact .refl _
  | cons e docs ih =>
    obtain ⟨p, j⟩ := e
    rw [lookup] at absent
    rw [insert]
    split at absent
    · simp at absent
    · rename_i elsewhere
      rw [if_neg elsewhere]
      split
      · exact .refl _
      · exact ((ih absent).cons (p, j)).trans (.swap _ _ _)

end ToolTrial.Documents

namespace ToolTrial.Store

def found (dir : Path) (pattern : Pattern) (docs : Documents) : Documents :=
  (docs.inside dir).filter fun e => fits pattern e.1

theorem inMemory_loadAll_gives_iff (dir : Path) (pattern : Pattern) (w w' : Workspace)
    (docs : Documents) : (inMemory.loadAll dir pattern).Gives w docs w' ↔
      (found dir pattern w.documents ≠ [] ∨ w.documents.hasDirectory dir = true) ∧
        found dir pattern w.documents = docs ∧ w = w' := by
  have answer : (inMemory.loadAll dir pattern).outcome w =
      if ((found dir pattern w.documents).isEmpty && !w.documents.hasDirectory dir) = true then
        (.error (Failure.refuse (.noDirectory dir)), w)
      else (.ok (found dir pattern w.documents), w) := by
    have unfolded : (inMemory.loadAll dir pattern).outcome w =
        (if ((found dir pattern w.documents).isEmpty && !w.documents.hasDirectory dir) = true then
          (Attempt.refuse (.noDirectory dir) >>= fun _ => pure (found dir pattern w.documents) :
            Attempt (StateM Workspace) Documents)
        else pure (found dir pattern w.documents)).outcome w := rfl
    rw [unfolded]
    split <;> rfl
  rw [Attempt.Gives, answer]
  split
  · rename_i missing
    simp only [Bool.and_eq_true, List.isEmpty_iff, Bool.not_eq_true'] at missing
    simp [missing]
  · rename_i present
    simp only [Bool.and_eq_true, List.isEmpty_iff, Bool.not_eq_true', not_and,
      Bool.not_eq_false] at present
    rw [Prod.mk.injEq, Except.ok.injEq]
    refine ⟨fun equal => ⟨?_, equal⟩, fun all => all.2⟩
    by_cases empty : found dir pattern w.documents = []
    · exact Or.inr (present empty)
    · exact Or.inl empty

private theorem outcome_inMemory_load (path : Path) (w : Workspace) :
    (inMemory.load path).outcome w =
      match w.documents.lookup path with
      | some document => (.ok document, w)
      | none => (.error (Failure.refuse (.noDocument path)), w) := by
  have got : (get : Attempt (StateM Workspace) Workspace).outcome w = (.ok w, w) := rfl
  show ((get : Attempt (StateM Workspace) Workspace) >>= _).outcome w = _
  rw [Attempt.outcome_bind, got]
  dsimp only
  cases w.documents.lookup path <;> rfl

theorem inMemory_load_gives_iff (path : Path) (w w' : Workspace) (document : Json) :
    (inMemory.load path).Gives w document w' ↔
      w.documents.lookup path = some document ∧ w = w' := by
  rw [Attempt.Gives, outcome_inMemory_load]
  cases w.documents.lookup path <;> simp

section Child

variable (dir : Path) {name : String} (h : Path.IsName name)

include h

/-- A new entry of a directory is found there if its name fits, besides what was found before. -/
theorem found_insert_perm (pattern : Pattern) {docs : Documents}
    (absent : docs.lookup (dir.child name) = none) (document : Json) :
    (found dir pattern (docs.insert (dir.child name) document)).Perm
      ((if pattern.isFoundIn name then [(dir.child name, document)] else []) ++
        found dir pattern docs) := by
  obtain ⟨upper, parent, steps⟩ := Path.parent?_child dir h
  have inside : (dir.child name).parent?.any dir.same = true := by
    rw [parent, Option.any_some, Path.same_iff, steps]
  refine (((Documents.insert_perm absent document).filter _).filter _).trans (.of_eq ?_)
  rw [List.filter_cons_of_pos (by exact inside), List.filter_cons, fits_child dir h]
  cases pattern.isFoundIn name <;> rfl

theorem hasDirectory_insert {docs : Documents} (absent : docs.lookup (dir.child name) = none)
    (document : Json) : (docs.insert (dir.child name) document).hasDirectory dir = true := by
  have member : (dir.child name, document) ∈ docs.insert (dir.child name) document :=
    (Documents.insert_perm absent document).mem_iff.mpr List.mem_cons_self
  rw [Documents.hasDirectory, List.any_eq_true]
  refine ⟨_, member, ?_⟩
  rw [Path.startsWith, Path.components_child dir h, List.isPrefixOf_iff_prefix]
  exact List.prefix_append _ _

end Child
end ToolTrial.Store
