import Mathlib.Data.List.Induction
import Mathlib.Data.List.Nodup
import ToolTrial.Proofs.Accidents
import ToolTrial.Proofs.Placing

/-!
Disks on which directories and files form a tree.  The operations keep them so, and with them a
text that is put in place.  Each entry below a directory is found under the path that goes down to
it from there by the names on the way.
-/

set_option autoImplicit false
set_option relaxedAutoImplicit false

namespace ToolTrial

namespace Disk

structure IsEntryName (name : String) : Prop where
  isName : Path.IsName name
  noNul : '\x00' ∉ name.toList
  short : name.utf8ByteSize ≤ nameLimit

/-- No place has two entries, every entry has a name, and it is in a directory. -/
structure IsTree (d : Disk) : Prop where
  distinct : (d.entries.map Prod.fst).Nodup
  noRoot : ∀ e ∈ d.entries, e.1 ≠ []
  named : ∀ e ∈ d.entries, ∀ name ∈ e.1, IsEntryName name
  housed : ∀ e ∈ d.entries, d.lookup e.1.dropLast = some .directory

instance (name : String) : Decidable (IsEntryName name) :=
  decidable_of_iff
    (('/' ∉ name.toList ∧ Path.isIdle name.toList = false ∧ name.toList ≠ ['.', '.']) ∧
      '\x00' ∉ name.toList ∧ name.utf8ByteSize ≤ nameLimit)
    ⟨fun ⟨⟨h, h', h''⟩, noNul, short⟩ => ⟨⟨h, h', h''⟩, noNul, short⟩,
      fun ⟨⟨h, h', h''⟩, noNul, short⟩ => ⟨⟨h, h', h''⟩, noNul, short⟩⟩

instance (d : Disk) : Decidable d.IsTree :=
  decidable_of_iff
    ((d.entries.map Prod.fst).Nodup ∧ (∀ e ∈ d.entries, e.1 ≠ []) ∧
      (∀ e ∈ d.entries, ∀ name ∈ e.1, IsEntryName name) ∧
      ∀ e ∈ d.entries, d.lookup e.1.dropLast = some .directory)
    ⟨fun ⟨h, h', h'', h'''⟩ => ⟨h, h', h'', h'''⟩, fun ⟨h, h', h'', h'''⟩ => ⟨h, h', h'', h'''⟩⟩

variable {d d' : Disk} {p dir : Path} {place q relative : Location} {e : Entry}

section Lookup

theorem lookup_eq_some_iff_mem {entries : List (Location × Entry)}
    (distinct : (entries.map Prod.fst).Nodup) :
    entries.lookup q = some e ↔ (q, e) ∈ entries := by
  induction entries with
  | nil => simp
  | cons first entries ih =>
    obtain ⟨p, entry⟩ := first
    rw [List.map_cons, List.nodup_cons] at distinct
    rw [List.mem_cons, Prod.mk.injEq]
    by_cases here : q = p
    · subst here
      have absent : (q, e) ∉ entries := fun inside =>
        distinct.1 (List.mem_map.mpr ⟨_, inside, rfl⟩)
      simp [absent, eq_comm]
    · have past : (q == p) = false := by simpa using here
      rw [List.lookup_cons, past, ih distinct.2]
      simp [here]

namespace IsTree

theorem mem_entries_iff (tree : d.IsTree) : (q, e) ∈ d.entries ↔ q ≠ [] ∧ d.lookup q = some e := by
  rw [← lookup_eq_some_iff_mem tree.distinct, lookup]
  by_cases root : q = []
  · have absent : d.entries.lookup q ≠ some e := by
      rw [Ne, lookup_eq_some_iff_mem tree.distinct]
      exact fun inside => tree.noRoot _ inside root
    rw [if_pos root]
    simpa [root] using absent
  · rw [if_neg root]
    simp [root]

theorem names (tree : d.IsTree) (found : d.lookup q = some e) :
    ∀ name ∈ q, IsEntryName name := by
  intro name member
  have given : q ≠ [] := List.ne_nil_of_mem member
  exact tree.named _ (tree.mem_entries_iff.mpr ⟨given, found⟩) name member

theorem lookup_dropLast (tree : d.IsTree) (found : d.lookup q = some e) :
    d.lookup q.dropLast = some .directory := by
  by_cases root : q = []
  · rw [root]
    rfl
  · exact tree.housed _ (tree.mem_entries_iff.mpr ⟨root, found⟩)

theorem lookup_of_append_singleton {name : String} (tree : d.IsTree)
    (found : d.lookup (place ++ [name]) = some e) : d.lookup place = some .directory := by
  simpa using tree.lookup_dropLast found

end IsTree
end Lookup

section Descent

namespace IsTree

theorem leads_descend (tree : d.IsTree) (leads : d.Leads dir place)
    (found : d.lookup (place ++ relative) = some e) :
    d.Leads (relative.foldl Path.child dir) (place ++ relative) := by
  induction relative using List.reverseRecOn generalizing e with
  | nil => simpa using leads
  | append_singleton front name ih =>
    rw [← List.append_assoc] at found
    have above := tree.lookup_of_append_singleton found
    have named := tree.names found name (by simp)
    rw [List.foldl_append, List.foldl_cons, List.foldl_nil, leads_child_iff _ named.isName]
    exact ⟨place ++ front, ih above, above, named.short, (List.append_assoc _ _ _).symm⟩

theorem resolves_descend (tree : d.IsTree) (reaches : d.Resolves dir place) {content : Content}
    (below : relative ≠ []) (found : d.lookup (place ++ relative) = some (.file content))
    (short : (relative.foldl Path.child dir).text.utf8ByteSize < pathLimit) :
    d.Resolves (relative.foldl Path.child dir) (place ++ relative) := by
  have named (name : String) (member : name ∈ relative) : IsEntryName name :=
    tree.names found name (List.mem_append_right _ member)
  refine ⟨?_, ?_, short, tree.leads_descend reaches.leads found, fun _ _ => ?_⟩
  · have steps := Path.components_descend dir fun name member => (named name member).isName
    rw [Bool.eq_false_iff]
    intro empty
    rw [(Path.components_eq_nil_iff _).mpr (by simpa using empty)] at steps
    exact below (by simpa using (List.append_eq_nil_iff.mp steps.symm).2)
  · rw [List.contains_eq_mem, decide_eq_false_iff_not]
    intro member
    rcases Path.mem_text_descend member with here | separator | ⟨name, inside, there⟩
    · have noNul := reaches.noNul
      simp [here] at noNul
    · simp at separator
    · exact (named name inside).noNul there
  · obtain ⟨front, name, rfl⟩ := (List.eq_nil_or_concat relative).resolve_left below
    rw [List.concat_eq_append, List.foldl_append, List.foldl_cons, List.foldl_nil]
    exact Path.asksForDirectory_child _ (named name (by simp)).isName

/-- A file below a directory is read under its path when it holds a text and the path is not too
long. -/
theorem readText_descend_iff (tree : d.IsTree) (reaches : d.Resolves dir place)
    {content : Content} (below : relative ≠ [])
    (found : d.lookup (place ++ relative) = some (.file content)) (text : String) :
    d.readText (relative.foldl Path.child dir) = .ok text ↔ content = .text text ∧
      (relative.foldl Path.child dir).text.utf8ByteSize < pathLimit := by
  rw [readText_eq_ok_iff]
  constructor
  · rintro ⟨q, resolves, read⟩
    obtain rfl := (tree.leads_descend reaches.leads found).unique resolves.leads
    rw [found] at read
    exact ⟨by simpa using read, resolves.short⟩
  · rintro ⟨rfl, short⟩
    exact ⟨_, tree.resolves_descend reaches below found short, found⟩

end IsTree
end Descent

section Operations

structure IsSpot (d : Disk) (q : Location) : Prop where
  named : ∀ name ∈ q, IsEntryName name
  housed : d.lookup q.dropLast = some .directory

namespace IsTree

theorem isSpot_of_lookup (tree : d.IsTree) (found : d.lookup q = some e) : d.IsSpot q :=
  ⟨tree.names found, tree.lookup_dropLast found⟩

-- A path may lead to a name that nothing has yet, so what is known of the way is said of places and
-- not of entries.
private theorem isSpot_of_walk (tree : d.IsTree) {steps : List Path.Component}
    (named : ∀ name, .name name ∈ steps → Path.IsName name ∧ '\x00' ∉ name.toList)
    (start : d.IsSpot place) (leads : d.walk place steps = .ok q) : d.IsSpot q := by
  induction steps generalizing place with
  | nil =>
    cases leads
    exact start
  | cons step steps ih =>
    have later (name : String) (member : .name name ∈ steps) :=
      named name (List.mem_cons_of_mem _ member)
    simp only [walk] at leads
    rcases found : d.lookup place with _ | _ | _
    · simp [found] at leads
    · rw [found] at leads
      cases step with
      | root => exact ih later (tree.isSpot_of_lookup (if_pos rfl)) leads
      | current => exact ih later start leads
      | parent => exact ih later (tree.isSpot_of_lookup (tree.lookup_dropLast found)) leads
      | name s =>
        obtain ⟨isName, noNul⟩ := named s List.mem_cons_self
        dsimp only at leads
        split at leads
        · cases leads
        · rename_i short
          refine ih later ⟨?_, by simpa using found⟩ leads
          intro name member
          rcases List.mem_append.mp member with above | here
          · exact tree.names found name above
          · rw [List.mem_singleton.mp here]
            exact ⟨isName, noNul, Nat.le_of_not_lt short⟩
    · simp [found] at leads

theorem isSpot_of_resolves (tree : d.IsTree) (reaches : d.Resolves p q) : d.IsSpot q := by
  have named (name : String) (member : .name name ∈ p.components) :
      Path.IsName name ∧ '\x00' ∉ name.toList := by
    obtain ⟨isName, inside⟩ := Path.isName_of_mem_components member
    refine ⟨isName, fun there => ?_⟩
    have noNul := reaches.noNul
    simp [inside there] at noNul
  have leads := reaches.leads
  unfold Leads at leads
  cases steps : p.components with
  | nil =>
    have named := reaches.named
    simp [(Path.components_eq_nil_iff p).mp steps] at named
  | cons step rest =>
    have start : d.IsSpot (if p.isAbsolute then [] else d.workplace) := by
      simp only [steps, walk] at leads
      rcases found : d.lookup (if p.isAbsolute then [] else d.workplace) with _ | _
      · simp [found] at leads
      · exact tree.isSpot_of_lookup found
    exact tree.isSpot_of_walk named start leads

end IsTree

theorem mem_setEntry {entries : List (Location × Entry)} {x : Location × Entry}
    (member : x ∈ setEntry q e entries) : x = (q, e) ∨ x ∈ entries := by
  induction entries with
  | nil => exact Or.inl (List.mem_singleton.mp member)
  | cons first entries ih =>
    rw [setEntry] at member
    split at member
    · rename_i here
      rcases List.mem_cons.mp member with rfl | later
      · exact Or.inl (by rw [here])
      · exact Or.inr (List.mem_cons_of_mem _ later)
    · rcases List.mem_cons.mp member with rfl | later
      · exact Or.inr List.mem_cons_self
      · exact (ih later).imp_right (List.mem_cons_of_mem _)

theorem nodup_setEntry {entries : List (Location × Entry)}
    (distinct : (entries.map Prod.fst).Nodup) : ((setEntry q e entries).map Prod.fst).Nodup := by
  induction entries with
  | nil => exact List.nodup_singleton _
  | cons first entries ih =>
    rw [List.map_cons, List.nodup_cons] at distinct
    rw [setEntry]
    split
    · exact List.nodup_cons.mpr distinct
    · rename_i elsewhere
      refine List.nodup_cons.mpr ⟨fun inside => ?_, ih distinct.2⟩
      obtain ⟨x, member, same⟩ := List.mem_map.mp inside
      rcases mem_setEntry member with rfl | old
      · exact elsewhere same.symm
      · exact distinct.1 (List.mem_map.mpr ⟨x, old, same⟩)

namespace IsTree

theorem put (tree : d.IsTree) (spot : d.IsSpot q) (free : d.lookup q ≠ some .directory)
    (e : Entry) : (d.put q e).IsTree := by
  have given := ne_root_of_free free
  have keeps := keeps_put free e
  refine ⟨nodup_setEntry tree.distinct, ?_, ?_, ?_⟩
  all_goals
    intro x member
    rcases mem_setEntry member with rfl | old
  · exact given
  · exact tree.noRoot x old
  · exact spot.named
  · exact tree.named x old
  · exact keeps.directory _ spot.housed
  · exact keeps.directory _ (tree.housed x old)

theorem erase (tree : d.IsTree) (free : d.lookup q ≠ some .directory) : (d.erase q).IsTree := by
  have sublist : (d.erase q).entries.Sublist d.entries := List.filter_sublist
  exact ⟨(sublist.map _).nodup tree.distinct, fun x member => tree.noRoot x (sublist.subset member),
    fun x member => tree.named x (sublist.subset member),
    fun x member => (keeps_erase free).directory _ (tree.housed x (sublist.subset member))⟩

theorem makeDirectory (tree : d.IsTree) (made : d.makeDirectory p = .ok d') : d'.IsTree := by
  obtain ⟨place, reaches, new, -, rfl⟩ := makeDirectory_eq_ok_iff.mp made
  exact tree.put (tree.isSpot_of_resolves reaches) (by simp [new]) .directory

theorem writeContent (tree : d.IsTree) {content : Content}
    (writes : d.writeContent p content = .ok d') : d'.IsTree := by
  obtain ⟨place, reaches, -, free, rfl⟩ := writeContent_eq_ok_iff.mp writes
  exact tree.put (tree.isSpot_of_resolves reaches) free (.file content)

theorem rename (tree : d.IsTree) {source target : Path}
    (moves : d.rename source target = .ok d') : d'.IsTree := by
  obtain ⟨sourcePlace, targetPlace, content, -, arrives, -, moving, free, rfl⟩ :=
    rename_eq_ok_iff.mp moves
  have sourceFree : d.lookup sourcePlace ≠ some .directory := by simp [moving]
  have spot := tree.isSpot_of_resolves arrives
  exact (tree.erase sourceFree).put
    ⟨spot.named, (keeps_erase sourceFree).directory _ spot.housed⟩ (free_erase sourceFree free)
    (.file content)

end IsTree

theorem isTree_empty {workplace : Location} (named : ∀ name ∈ workplace, IsEntryName name) :
    (empty workplace).IsTree := by
  have distinct : ((empty workplace).entries.map Prod.fst).Nodup := by
    rw [empty, List.map_map]
    refine List.Nodup.map_on ?_ List.nodup_range
    intro n inside m inside' same
    rw [List.mem_range] at inside inside'
    have lengths := congrArg List.length same
    simp only [Function.comp_apply, List.length_take] at lengths
    omega
  refine ⟨distinct, ?_, ?_, ?_⟩
  all_goals
    intro x member
    obtain ⟨n, inside, rfl⟩ := List.mem_map.mp member
    rw [List.mem_range] at inside
  · intro root
    have length := congrArg List.length root
    simp only [List.length_take, List.length_nil] at length
    omega
  · exact fun name member => named name (List.mem_of_mem_take member)
  · have above : (workplace.take (n + 1)).dropLast = workplace.take n := by
      rw [List.dropLast_eq_take, List.length_take, Nat.min_eq_left inside, Nat.succ_sub_one,
        List.take_take, Nat.min_eq_left (Nat.le_succ n)]
    show lookup _ (workplace.take (n + 1)).dropLast = _
    rw [above, lookup]
    split
    · rfl
    · rename_i below
      rw [lookup_eq_some_iff_mem distinct]
      obtain ⟨k, rfl⟩ : ∃ k, n = k + 1 := Nat.exists_eq_succ_of_ne_zero (by
        rintro rfl
        simp at below)
      exact List.mem_map.mpr ⟨k, List.mem_range.mpr (by omega), rfl⟩

end Operations

end Disk

theorem AtRisk.isTree_writeWhole (path : Path) (text : String) (t : AtRisk)
    (tree : t.disk.IsTree) :
    ((FileSystem.writeWhole path text : Attempt (StateM AtRisk) Unit).outcome t).2.disk.IsTree := by
  let Stays (d d' : Disk) : Prop := d.IsTree → d'.IsTree
  have makes (p : Path) (d d' : Disk) (made : d.makeDirectory p = .ok d') : Stays d d' :=
    fun tree => tree.makeDirectory made
  have writes (p : Path) (content : Content) (d d' : Disk)
      (written : d.writeContent p content = .ok d') : Stays d d' :=
    fun tree => tree.writeContent written
  have moves (source target : Path) (d d' : Disk) (moved : d.rename source target = .ok d') :
      Stays d d' := fun tree => tree.rename moved
  have refl (d : Disk) : Stays d d := id
  have trans (d d' d'' : Disk) (first : Stays d d') (second : Stays d' d'') : Stays d d'' :=
    fun tree => second (first tree)
  exact AtRisk.changes_writeWhole refl makes trans writes moves path text t tree

end ToolTrial
