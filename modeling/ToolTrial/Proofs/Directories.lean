import Mathlib.Data.List.Lex
import Mathlib.Data.List.Sort
import Mathlib.Data.Prod.Lex
import Mathlib.Data.String.Basic
import ToolTrial.Proofs.Store
import ToolTrial.Proofs.Tree

/-!
Loading a directory.  A walk below a directory of a tree comes upon each entry once; the files among
these whose names fit are read, and their documents are put in the order of their paths.  To look
deeper adds documents and leaves out none.
-/

set_option autoImplicit false
set_option relaxedAutoImplicit false

namespace ToolTrial

namespace Path

def Component.rank : Component → Nat ×ₗ String
  | .root => toLex (0, "")
  | .current => toLex (1, "")
  | .parent => toLex (2, "")
  | .name s => toLex (3, s)

theorem Component.rank_injective : Function.Injective Component.rank := by
  intro a b same
  cases a <;> cases b <;> simp_all [rank]

theorem Component.before_iff (a b : Component) : a.before b = true ↔ a.rank < b.rank := by
  cases a <;> cases b <;> simp [before, rank, Prod.Lex.toLex_lt_toLex]

theorem stepsBefore_iff (a b : List Component) :
    stepsBefore a b = true ↔ a.map Component.rank < b.map Component.rank := by
  induction a generalizing b with
  | nil => cases b <;> simp [stepsBefore]
  | cons step a ih =>
    cases b with
    | nil => simp [stepsBefore]
    | cons other b =>
      simp [stepsBefore, List.cons_lt_cons_iff, ih, Component.before_iff,
        Component.rank_injective.eq_iff]

def rank (p : Path) : List (Nat ×ₗ String) := p.components.map Component.rank

theorem before_iff (p q : Path) : p.before q = true ↔ p.rank < q.rank := stepsBefore_iff _ _

theorem not_before_iff (p q : Path) : (!q.before p) = true ↔ p.rank ≤ q.rank := by
  rw [Bool.not_eq_true', ← Bool.not_eq_true, before_iff, not_lt]

theorem rank_descend_ne (dir : Path) {a b : List String} (names : ∀ name ∈ a, IsName name)
    (names' : ∀ name ∈ b, IsName name) (apart : a ≠ b) :
    (a.foldl child dir).rank ≠ (b.foldl child dir).rank := by
  rw [rank, rank, Ne, (List.map_injective_iff.mpr Component.rank_injective).eq_iff,
    components_descend dir names, components_descend dir names', List.append_cancel_left_eq]
  exact fun same => apart (List.map_injective_iff.mpr (fun _ _ => Component.name.inj) same)

end Path

namespace Store

variable {docs : List (Path × Json)}

theorem pairwise_inOrder (docs : List (Path × Json)) :
    (inOrder docs).Pairwise fun a b => a.1.rank ≤ b.1.rank := by
  have sorted : (inOrder docs).Pairwise fun a b => (!b.1.before a.1) = true := by
    refine List.pairwise_mergeSort (fun a b c => ?_) (fun a b => ?_) _
    · simp only [Path.not_before_iff]
      exact le_trans
    · rw [Bool.or_eq_true, Path.not_before_iff, Path.not_before_iff]
      exact le_total _ _
  exact sorted.imp fun notAfter => (Path.not_before_iff _ _).mp notAfter

theorem ascending_inOrder (apart : docs.Pairwise fun a b => a.1.rank ≠ b.1.rank) :
    (inOrder docs).Pairwise fun a b => a.1.before b.1 = true := by
  have apart' : (inOrder docs).Pairwise fun a b => a.1.rank ≠ b.1.rank :=
    ((inOrder_perm docs).pairwise_iff fun ne => ne.symm).mpr apart
  refine ((pairwise_inOrder docs).and apart').imp ?_
  rintro a b ⟨notAfter, ne⟩
  exact (Path.before_iff _ _).mpr (lt_of_le_of_ne notAfter ne)

theorem inOrder_sublist {some : List (Path × Json)} (part : some.Sublist docs)
    (apart : docs.Pairwise fun a b => a.1.rank ≠ b.1.rank) :
    (inOrder some).Sublist (inOrder docs) := by
  have antisymm : Std.Antisymm fun (a b : Path × Json) => a.1.before b.1 = true :=
    ⟨fun a b earlier later =>
      (lt_asymm ((Path.before_iff _ _).mp earlier) ((Path.before_iff _ _).mp later)).elim⟩
  have subperm : (inOrder some).Subperm (inOrder docs) :=
    (inOrder_perm some).subperm.trans (part.subperm.trans (inOrder_perm docs).symm.subperm)
  exact List.sublist_of_subperm_of_pairwise subperm (ascending_inOrder (apart.sublist part))
    (ascending_inOrder apart)

end Store

def Content.document? : Content → Option Json
  | .text s => Json.parse? s
  | .undecodable => none

namespace Disk

variable {d : Disk} {dir : Path} {place relative : Location} {depth : Nat} {pattern : Pattern}
  {content : Content}

/-- A file some steps below a directory, at most as many as the depth, whose name fits. -/
structure Finds (d : Disk) (place : Location) (depth : Nat) (pattern : Pattern)
    (relative : Location) (content : Content) : Prop where
  lookup_eq : d.lookup (place ++ relative) = some (.file content)
  atLeast : 1 ≤ relative.length
  atMost : relative.length ≤ depth
  fits : ∃ name, relative.getLast? = some name ∧ pattern.isFoundIn name = true

namespace IsTree

theorem mem_under_iff (tree : d.IsTree) {e : Entry} :
    (relative, e) ∈ d.under place ↔ relative ≠ [] ∧ d.lookup (place ++ relative) = some e := by
  have shape : (relative, e) ∈ d.under place ↔
      relative ≠ [] ∧ (place ++ relative, e) ∈ d.entries := by
    rw [under, List.mem_mergeSort, List.mem_filterMap]
    constructor
    · rintro ⟨⟨q, e'⟩, member, lies⟩
      obtain ⟨relative', below, same⟩ := Option.map_eq_some_iff.mp lies
      obtain ⟨rfl, rfl⟩ := Prod.mk.inj same
      obtain ⟨rfl, given⟩ := (below?_eq_some_iff _ _ _).mp below
      exact ⟨given, member⟩
    · rintro ⟨given, member⟩
      refine ⟨_, member, ?_⟩
      rw [(below?_eq_some_iff place (place ++ relative) relative).mpr ⟨rfl, given⟩]
      rfl
  rw [shape, tree.mem_entries_iff]
  simp +contextual

theorem nodup_under (tree : d.IsTree) (place : Location) :
    ((d.under place).map Prod.fst).Nodup := by
  have perm := (List.mergeSort_perm
    (d.entries.filterMap fun e => (below? place e.1).map (·, e.2))
    fun a b => !placeBefore b.1 a.1).map Prod.fst
  refine perm.nodup_iff.mpr ?_
  have places : (d.entries.filterMap fun e => (below? place e.1).map (·, e.2)).map Prod.fst =
      (d.entries.map Prod.fst).filterMap (below? place) := by
    rw [List.map_filterMap, List.filterMap_map]
    refine List.filterMap_congr fun e _ => ?_
    simp [Function.comp_def]
  rw [places]
  refine tree.distinct.filterMap fun q q' relative below below' => ?_
  rw [((below?_eq_some_iff _ _ _).mp below).1, ((below?_eq_some_iff _ _ _).mp below').1]

end IsTree

def foundFiles (d : Disk) (place : Location) (depth : Nat) (pattern : Pattern) (dir : Path) :
    List Path :=
  Store.sought pattern (d.found place depth dir)

theorem foundFiles_eq (d : Disk) (place : Location) (depth : Nat) (pattern : Pattern) (dir : Path) :
    d.foundFiles place depth pattern dir =
      ((d.under place).filter fun e => (e.2.isFile &&
        Store.fits pattern (e.1.foldl Path.child dir)) && decide (e.1.length ≤ depth)).map
          fun e => e.1.foldl Path.child dir := by
  rw [foundFiles, Store.sought, found, List.filter_map, List.map_map, List.filter_filter]
  rfl

theorem foundFiles_sublist {less : Nat} (shallower : less ≤ depth) (dir : Path) :
    (d.foundFiles place less pattern dir).Sublist (d.foundFiles place depth pattern dir) := by
  refine ((List.Sublist.map _ ?_).filter _).map _
  refine List.monotone_filter_right _ fun e near => ?_
  exact decide_eq_true ((of_decide_eq_true near).trans shallower)

namespace IsTree

theorem fits_descend_iff (tree : d.IsTree) {e : Entry} (below : relative ≠ [])
    (found : d.lookup (place ++ relative) = some e) (dir : Path) :
    Store.fits pattern (relative.foldl Path.child dir) = true ↔
      ∃ name, relative.getLast? = some name ∧ pattern.isFoundIn name = true := by
  obtain ⟨front, name, rfl⟩ := (List.eq_nil_or_concat relative).resolve_left below
  rw [List.concat_eq_append] at found ⊢
  have named := tree.names found name (by simp)
  rw [List.foldl_append, List.foldl_cons, List.foldl_nil, Store.fits_child _ named.isName]
  simp

theorem mem_foundFiles_iff (tree : d.IsTree) (path : Path) :
    path ∈ d.foundFiles place depth pattern dir ↔ ∃ relative content,
      d.Finds place depth pattern relative content ∧ path = relative.foldl Path.child dir := by
  simp only [foundFiles_eq, List.mem_map, List.mem_filter, Bool.and_eq_true, decide_eq_true_eq]
  constructor
  · rintro ⟨⟨relative, _ | content⟩, ⟨member, ⟨isFile, fitting⟩, near⟩, rfl⟩
    · cases isFile
    · obtain ⟨below, found⟩ := tree.mem_under_iff.mp member
      exact ⟨relative, content, ⟨found, List.length_pos_iff.mpr below, near,
        (tree.fits_descend_iff below found dir).mp fitting⟩, rfl⟩
  · rintro ⟨relative, content, finds, rfl⟩
    have below := List.length_pos_iff.mp finds.atLeast
    exact ⟨(relative, .file content), ⟨tree.mem_under_iff.mpr ⟨below, finds.lookup_eq⟩,
      ⟨rfl, (tree.fits_descend_iff below finds.lookup_eq dir).mpr finds.fits⟩, finds.atMost⟩, rfl⟩

theorem mem_foundFiles (tree : d.IsTree)
    (finds : d.Finds place depth pattern relative content) (dir : Path) :
    relative.foldl Path.child dir ∈ d.foundFiles place depth pattern dir :=
  (tree.mem_foundFiles_iff _).mpr ⟨relative, content, finds, rfl⟩

theorem apart_foundFiles (tree : d.IsTree) :
    (d.foundFiles place depth pattern dir).Pairwise fun p q => p.rank ≠ q.rank := by
  rw [foundFiles_eq, List.pairwise_map]
  refine List.Pairwise.filter _ ?_
  refine (List.pairwise_map.mp (tree.nodup_under place)).imp_of_mem ?_
  rintro ⟨a, e⟩ ⟨b, e'⟩ member member' apart
  have names {relative : Location} {e : Entry} (member : (relative, e) ∈ d.under place) :
      ∀ name ∈ relative, Path.IsName name := fun name inside =>
    (tree.names (tree.mem_under_iff.mp member).2 name (List.mem_append_right _ inside)).isName
  exact Path.rank_descend_ne dir (names member) (names member') apart

end IsTree
end Disk

namespace Store

open Attempt

variable {w : Workspace} {dir : Path} {place : Location} {depth : Nat} {pattern : Pattern}
  {docs : List (Path × Json)}

theorem onDisk_loadAll_gives_iff_reads (reaches : w.disk.Resolves dir place)
    (isDirectory : w.disk.lookup place = some .directory) (deep : 1 ≤ depth) :
    ((onDisk depth).loadAll dir pattern : Attempt (StateM Workspace) _).Gives w docs w ↔
      ∃ read, List.Forall₂ (Reads w.disk) (w.disk.foundFiles place depth pattern dir) read ∧
        inOrder read = docs := by
  rw [onDisk_loadAll_gives_iff, Nat.max_eq_right deep, Disk.entriesBelow_eq reaches]
  simp only [Disk.isDirectory_iff.mpr ⟨place, reaches, isDirectory⟩, Except.ok.injEq,
    existsAndEq, true_and, and_true]
  rfl

theorem document?_of_reads (tree : w.disk.IsTree) (reaches : w.disk.Resolves dir place)
    {relative : Location} {content : Content}
    (finds : w.disk.Finds place depth pattern relative content) {e : Path × Json}
    (reads : Reads w.disk (relative.foldl Path.child dir) e) :
    content.document? = some e.2 := by
  obtain ⟨-, text, read, parsed⟩ := reads
  have below := List.length_pos_iff.mp finds.atLeast
  obtain ⟨rfl, -⟩ := (tree.readText_descend_iff reaches below finds.lookup_eq text).mp read
  exact parsed

/-- The documents of a directory: those of the files that are found there, in the order of their
paths, each with its path. -/
structure Collects (d : Disk) (dir : Path) (place : Location) (depth : Nat) (pattern : Pattern)
    (docs : List (Path × Json)) : Prop where
  ascending : docs.Pairwise fun a b => a.1.before b.1 = true
  mem_iff : ∀ path document, (path, document) ∈ docs ↔ ∃ relative content,
    d.Finds place depth pattern relative content ∧ path = relative.foldl Path.child dir ∧
      content.document? = some document

variable {read : List (Path × Json)}

theorem apart_of_reads (tree : w.disk.IsTree)
    (reads : List.Forall₂ (Reads w.disk) (w.disk.foundFiles place depth pattern dir) read) :
    read.Pairwise fun a b => a.1.rank ≠ b.1.rank := by
  have paths : w.disk.foundFiles place depth pattern dir = read.map Prod.fst := by
    rw [← List.forall₂_eq_eq_eq, List.forall₂_map_right_iff]
    exact reads.imp fun _ _ read => read.1.symm
  have apart : (w.disk.foundFiles place depth pattern dir).Pairwise fun p q => p.rank ≠ q.rank :=
    tree.apart_foundFiles
  rwa [paths, List.pairwise_map] at apart

theorem collects_of_reads (tree : w.disk.IsTree) (reaches : w.disk.Resolves dir place)
    (reads : List.Forall₂ (Reads w.disk) (w.disk.foundFiles place depth pattern dir) read) :
    Collects w.disk dir place depth pattern (inOrder read) := by
  refine ⟨ascending_inOrder (apart_of_reads tree reads), fun path document => ?_⟩
  rw [(inOrder_perm read).mem_iff]
  constructor
  · intro member
    obtain ⟨file, inside, read⟩ := exists_mem_of_forall₂ reads member
    obtain ⟨relative, content, finds, rfl⟩ := (tree.mem_foundFiles_iff file).mp inside
    exact ⟨relative, content, finds, read.1, document?_of_reads tree reaches finds read⟩
  · rintro ⟨relative, content, finds, rfl, holds⟩
    have inside := tree.mem_foundFiles finds dir
    obtain ⟨⟨path, document'⟩, member, read⟩ := exists_mem_of_forall₂ reads.flip inside
    obtain rfl : path = _ := read.1
    have same := holds.symm.trans (document?_of_reads tree reaches finds read)
    rwa [Option.some.inj same]

section Loading

variable (reaches : w.disk.Resolves dir place) (isDirectory : w.disk.lookup place = some .directory)
  (deep : 1 ≤ depth)
include reaches isDirectory

include deep in
theorem exists_loadAll_of_reads (tree : w.disk.IsTree)
    (holds : ∀ relative content, w.disk.Finds place depth pattern relative content →
      ∃ text document, w.disk.readText (relative.foldl Path.child dir) = .ok text ∧
        Json.parse? text = some document) :
    ∃ docs, ((onDisk depth).loadAll dir pattern : Attempt (StateM Workspace) _).Gives w docs w ∧
      Collects w.disk dir place depth pattern docs := by
  have each : ∀ file ∈ w.disk.foundFiles place depth pattern dir, ∃ e, Reads w.disk file e := by
    intro file member
    obtain ⟨relative, content, finds, rfl⟩ := (tree.mem_foundFiles_iff file).mp member
    obtain ⟨text, document, read, parsed⟩ := holds relative content finds
    exact ⟨(_, document), rfl, text, read, parsed⟩
  obtain ⟨read, reads⟩ := exists_forall₂_iff.mpr each
  exact ⟨inOrder read,
    (onDisk_loadAll_gives_iff_reads reaches isDirectory deep).mpr ⟨read, reads, rfl⟩,
    collects_of_reads tree reaches reads⟩

/-- Where a directory can be loaded, to look less deep gives a part of its documents. -/
theorem exists_loadAll_sublist (tree : w.disk.IsTree) {less : Nat} (least : 1 ≤ less)
    (shallower : less ≤ depth)
    (given : ((onDisk depth).loadAll dir pattern : Attempt (StateM Workspace) _).Gives w docs w) :
    ∃ docs' : List (Path × Json), docs'.Sublist docs ∧
      ((onDisk less).loadAll dir pattern : Attempt (StateM Workspace) _).Gives w docs' w := by
  have deep := least.trans shallower
  obtain ⟨read, reads, rfl⟩ :=
    (onDisk_loadAll_gives_iff_reads reaches isDirectory deep).mp given
  obtain ⟨read', part, reads'⟩ :=
    exists_forall₂_of_sublist reads (Disk.foundFiles_sublist shallower dir)
  exact ⟨inOrder read', inOrder_sublist part (apart_of_reads tree reads),
    (onDisk_loadAll_gives_iff_reads reaches isDirectory least).mpr ⟨read', reads', rfl⟩⟩

include deep in
theorem loadAll_of_broken (tree : w.disk.IsTree) {relative : Location} {content : Content}
    (finds : w.disk.Finds place depth pattern relative content)
    (broken : content.document? = none) :
    ∃ f, ((onDisk depth).loadAll dir pattern : Attempt (StateM Workspace) _).outcome w =
      (.error f, w) := by
  have left := (Kind.onDisk depth).steady_loadAll dir pattern w
  rw [Kind.store] at left
  rcases ended : ((onDisk depth).loadAll dir pattern :
    Attempt (StateM Workspace) _).outcome w with ⟨f | docs, w'⟩
  all_goals
    rw [ended] at left
    obtain rfl : w' = w := left
  · exact ⟨f, rfl⟩
  · obtain ⟨_, reads, -⟩ :=
      (onDisk_loadAll_gives_iff_reads reaches isDirectory deep).mp ended
    obtain ⟨e, -, read⟩ := exists_mem_of_forall₂ reads.flip (tree.mem_foundFiles finds dir)
    have holds := document?_of_reads tree reaches finds read
    rw [broken] at holds
    cases holds

end Loading

/-- Loading a directory of a tree.  When every file that is found there reads as a document, under
its path, the documents of the directory are given; to look less deep gives a part of them in the
same order; and when a file that is found holds no document, nothing is given.  Files that are not
found, because they lie deeper or have other names, do not matter. -/
theorem onDisk_loadAll_collects (tree : w.disk.IsTree) (reaches : w.disk.Resolves dir place)
    (isDirectory : w.disk.lookup place = some .directory) (deep : 1 ≤ depth) (pattern : Pattern) :
    ((∀ relative content, w.disk.Finds place depth pattern relative content →
        ∃ text document, w.disk.readText (relative.foldl Path.child dir) = .ok text ∧
          Json.parse? text = some document) →
      ∃ docs, ((onDisk depth).loadAll dir pattern : Attempt (StateM Workspace) _).Gives w docs w ∧
        Collects w.disk dir place depth pattern docs) ∧
    (∀ less docs, 1 ≤ less → less ≤ depth →
      ((onDisk depth).loadAll dir pattern : Attempt (StateM Workspace) _).Gives w docs w →
      ∃ docs' : List (Path × Json), docs'.Sublist docs ∧
        ((onDisk less).loadAll dir pattern : Attempt (StateM Workspace) _).Gives w docs' w) ∧
    ((∃ relative content, w.disk.Finds place depth pattern relative content ∧
        content.document? = none) →
      ∃ f, ((onDisk depth).loadAll dir pattern : Attempt (StateM Workspace) _).outcome w =
        (.error f, w)) := by
  refine ⟨fun holds => exists_loadAll_of_reads reaches isDirectory deep tree holds,
    fun less docs least shallower given =>
      exists_loadAll_sublist reaches isDirectory tree least shallower given, ?_⟩
  rintro ⟨relative, content, finds, broken⟩
  exact loadAll_of_broken reaches isDirectory deep tree finds broken

section Samples

open Pattern (documentNames)

/-- A directory with files down to three steps below it; the deepest holds no document. -/
private def nested : Workspace where
  disk := {
    workplace := []
    entries := [(["runs"], .directory),
      (["runs", "b.json"], .file (.text (Json.bool true).savedText)),
      (["runs", "notes.txt"], .file (.text "no document")),
      (["runs", "a"], .directory),
      (["runs", "a", "c.json"], .file (.text Json.null.savedText)),
      (["runs", "a", "old"], .directory),
      (["runs", "a", "old", "d.json"], .file .undecodable)] }
  documents := []
  clock := "now"
  answered := 0

private theorem nested_tree : nested.disk.IsTree := by decide +kernel

private theorem nested_reaches : nested.disk.Resolves ⟨"/runs"⟩ ["runs"] :=
  Disk.resolve_eq_ok_iff.mp (by decide +kernel)

private theorem nested_files {relative : Location} {content : Content}
    (finds : nested.disk.Finds ["runs"] 2 documentNames relative content) :
    relative = ["b.json"] ∧ content = .text (Json.bool true).savedText ∨
      relative = ["a", "c.json"] ∧ content = .text Json.null.savedText := by
  obtain ⟨name, last, fits⟩ := finds.fits
  have near := finds.atMost
  have member := (nested_tree.mem_entries_iff.mpr ⟨by simp, finds.lookup_eq⟩)
  simp only [nested, List.mem_cons, Prod.mk.injEq, List.cons_append, List.nil_append,
    List.cons.injEq, true_and, reduceCtorEq, and_false, Entry.file.injEq, List.not_mem_nil,
    or_false, false_or] at member
  rcases member with ⟨rfl, rfl⟩ | ⟨rfl, rfl⟩ | ⟨rfl, rfl⟩ | ⟨rfl, rfl⟩
  · exact Or.inl ⟨rfl, rfl⟩
  · obtain rfl : "notes.txt" = name := by simpa using last
    exact absurd fits (by decide +kernel)
  · exact Or.inr ⟨rfl, rfl⟩
  · simp at near

theorem onDisk_loadAll_nested : nested.disk.IsTree ∧
    nested.disk.Resolves ⟨"/runs"⟩ ["runs"] ∧ nested.disk.lookup ["runs"] = some .directory ∧
    (∃ docs docs' : List (Path × Json),
      ((onDisk 2).loadAll ⟨"/runs"⟩ documentNames : Attempt (StateM Workspace) _).Gives
        nested docs nested ∧ Collects nested.disk ⟨"/runs"⟩ ["runs"] 2 documentNames docs ∧
      docs'.Sublist docs ∧
      ((onDisk 1).loadAll ⟨"/runs"⟩ documentNames : Attempt (StateM Workspace) _).Gives
        nested docs' nested) ∧
    ∃ f, ((onDisk 3).loadAll ⟨"/runs"⟩ documentNames : Attempt (StateM Workspace) _).outcome
      nested = (.error f, nested) := by
  have isDirectory : nested.disk.lookup ["runs"] = some .directory := by decide +kernel
  obtain ⟨gives, part, -⟩ := onDisk_loadAll_collects nested_tree nested_reaches isDirectory
    (by decide : 1 ≤ 2) documentNames
  obtain ⟨-, -, fails⟩ := onDisk_loadAll_collects nested_tree nested_reaches isDirectory
    (by decide : 1 ≤ 3) documentNames
  obtain ⟨docs, given, collects⟩ := gives (by
    intro relative content finds
    rcases nested_files finds with ⟨rfl, rfl⟩ | ⟨rfl, rfl⟩
    · exact ⟨_, .bool true, by decide +kernel, Json.read?_savedText (.bool true)⟩
    · exact ⟨_, .null, by decide +kernel, Json.read?_savedText .null⟩)
  obtain ⟨docs', sublist, given'⟩ := part 1 docs le_rfl (by decide) given
  refine ⟨nested_tree, nested_reaches, isDirectory, ⟨docs, docs', given, collects, sublist, given'⟩,
    fails ⟨["a", "old", "d.json"], .undecodable, ?_, rfl⟩⟩
  exact ⟨by decide +kernel, by decide, by decide, "d.json", rfl, by decide +kernel⟩

end Samples
end Store
end ToolTrial
