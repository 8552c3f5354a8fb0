import ToolTrial.Proofs.Access
import ToolTrial.Proofs.Pattern

/-!
Documents in files.  A document that is stored in a directory under a new name is found there, and
every file whose name is that of a document is found as before and reads as before.
-/

set_option autoImplicit false
set_option relaxedAutoImplicit false

namespace ToolTrial

namespace Disk

open FileSystem (temporaryName)
open Pattern (documentNames)

section Below

theorem below?_eq_some_iff (place q relative : Location) :
    below? place q = some relative ↔ q = place ++ relative ∧ relative ≠ [] := by
  induction place generalizing q with
  | nil =>
    rw [below?, List.nil_append]
    cases q with
    | nil => simp [eq_comm]
    | cons b bs =>
      simp only [List.isEmpty_cons, Bool.false_eq_true, if_false, Option.some.injEq]
      constructor
      · rintro rfl
        exact ⟨rfl, by simp⟩
      · exact fun both => both.1
  | cons a as ih =>
    cases q with
    | nil => simp [below?]
    | cons b bs =>
      rw [below?]
      by_cases equal : a = b
      · simp [equal, ih]
      · simp [equal, Ne.symm equal]

/-- The path of an entry as a file below a directory. -/
def fileBelow? (depth : Nat) (dir : Path) (place : Location) (e : Location × Entry) :
    Option Path :=
  (below? place e.1).bind fun relative =>
    match e.2 with
    | .directory => none
    | .file _ => if relative.length ≤ depth then some (relative.foldl Path.child dir) else none

theorem entriesBelow_eq {d : Disk} {dir : Path} {place : Location} (resolves : d.Resolves dir place)
    (depth : Nat) : d.entriesBelow depth dir = .ok (d.found place depth dir) := by
  rw [entriesBelow, resolve_eq_ok_iff.mpr resolves]
  rfl

theorem sought_found_perm (d : Disk) (place : Location) (depth : Nat) (dir : Path)
    (pattern : Pattern) : (Store.sought pattern (d.found place depth dir)).Perm
      ((d.entries.filterMap (fileBelow? depth dir place)).filter (Store.fits pattern)) := by
  rw [Store.sought, found, List.filter_map, List.map_map, List.filter_filter]
  refine (((List.mergeSort_perm _ _).filter _).map _).trans (.of_eq ?_)
  rw [List.filter_filterMap, List.map_filterMap, List.filter_filterMap]
  refine List.filterMap_congr fun e _ => ?_
  obtain ⟨q, entry⟩ := e
  rw [fileBelow?]
  cases below? place q with
  | none => rfl
  | some relative =>
    cases entry with
    | directory => simp [Entry.isFile]
    | file content =>
      by_cases near : relative.length ≤ depth
      · simp [Entry.isFile, Option.filter_some, near]
      · simp [Entry.isFile, Option.filter_some, near]

theorem fileBelow?_directory (depth : Nat) (dir : Path) (place q : Location) :
    fileBelow? depth dir place (q, .directory) = none := by
  rw [fileBelow?]
  cases below? place q <;> rfl

theorem fileBelow?_child {depth : Nat} (deep : 1 ≤ depth) (dir : Path) (place : Location)
    (name : String) (content : Content) :
    fileBelow? depth dir place (place ++ [name], .file content) = some (dir.child name) := by
  have below : below? place (place ++ [name]) = some [name] :=
    (below?_eq_some_iff _ _ _).mpr ⟨rfl, by simp⟩
  rw [fileBelow?, below, Option.bind_some]
  exact if_pos deep

end Below

section Names

theorem getLast?_of_leads {d : Disk} {p : Path} {q : Location} {name : String}
    (leads : d.Leads p q) (named : p.fileName? = some name) : q.getLast? = some name := by
  have last : p.components.getLast? = some (.name name) := by
    rw [Path.fileName?] at named
    split at named
    · rename_i s last
      obtain rfl := Option.some.inj named
      exact last
    · simp at named
  obtain ⟨front, steps⟩ := List.getLast?_eq_some_iff.mp last
  rw [Leads, steps, walk_append, bind_eq_ok_iff] at leads
  obtain ⟨place, -, step⟩ := leads
  obtain ⟨-, -, rfl⟩ := (walk_name_eq_ok_iff d place q name).mp step
  simp

theorem isFoundIn_temporaryName (name : String) :
    documentNames.isFoundIn (temporaryName name) = false := by
  rw [← Bool.not_eq_true, Pattern.isFoundIn_documentNames_iff]
  rintro ⟨stem, spelled, -⟩
  have last := congrArg List.getLast? spelled
  simp [temporaryName] at last

end Names

section Stored

variable {d g d' : Disk} {place : Location} {dir : Path} {name text : String}

theorem Spares.readText_eq_ok {exposed : Location → Prop} (h : Spares exposed d d') {p : Path}
    {s : String} (read : d.readText p = .ok s)
    (hidden : ∀ q content, d.Leads p q → d.lookup q = some (.file content) → ¬ exposed q) :
    d'.readText p = .ok s := by
  obtain ⟨q, resolves, content⟩ := readText_eq_ok_iff.mp read
  refine readText_eq_ok_iff.mpr
    ⟨q, ?_, h.lookup_eq (hidden q _ resolves.leads content) content⟩
  exact ⟨resolves.named, resolves.noNul, resolves.short, h.keeps.leads resolves.leads,
    fun _ _ => resolves.asksForFile _ content⟩

theorem ne_temporary_of_leads {p : Path} {q : Location} (fits : Store.fits documentNames p = true)
    (leads : d.Leads p q) : q ≠ place ++ [temporaryName name] := by
  rw [Store.fits, Option.any_eq_true] at fits
  obtain ⟨other, named, found⟩ := fits
  rintro rfl
  have last := getLast?_of_leads leads named
  obtain rfl : temporaryName name = other := by simpa using last
  simp [isFoundIn_temporaryName] at found

/-- A file whose name is that of a document reads as before. -/
theorem Stored.readText_eq_ok (h : Stored d g d' place name text)
    (new : g.lookup (place ++ [name]) = none) {p : Path}
    (fits : Store.fits documentNames p = true) {s : String} (read : d.readText p = .ok s) :
    d'.readText p = .ok s := by
  refine h.spares.readText_eq_ok read fun q content leads found => ?_
  rw [not_or]
  refine ⟨ne_temporary_of_leads fits leads, ?_⟩
  rintro rfl
  have before := h.grown.lookup_eq_some found
  simp [new] at before

theorem Stored.lookup_eq_none (h : Stored d g d' place name text) (isName : Path.IsName name)
    (leads : g.Leads dir place) (isDirectory : d.isDirectory dir = true)
    (resolves : d'.Resolves (dir.child name) (place ++ [name]))
    (asks : (dir.child name).asksForDirectory = false)
    (absent : d.isFile (dir.child name) = false) : g.lookup (place ++ [name]) = none := by
  rcases found : g.lookup (place ++ [name]) with _ | _ | content
  · rfl
  · exact absurd found h.targetFree
  · have before := h.grown.lookup_eq_file found
    obtain ⟨place', atDirectory, isDirectory⟩ := isDirectory_iff.mp isDirectory
    obtain rfl := (h.grown.keeps.leads atDirectory.leads).unique leads
    obtain ⟨-, -, -, short, -⟩ := (leads_child_iff dir isName _).mp resolves.leads
    have leadsBefore : d.Leads (dir.child name) (place' ++ [name]) :=
      (leads_child_iff dir isName _).mpr ⟨place', atDirectory.leads, isDirectory, short, rfl⟩
    have isFile : d.isFile (dir.child name) = true := isFile_iff.mpr ⟨_, content,
      ⟨resolves.named, resolves.noNul, resolves.short, leadsBefore, fun _ _ => asks⟩, before⟩
    simp [absent] at isFile

theorem Stored.isFile_child (h : Stored d g d' place name text) (leads : g.Leads dir place)
    (isDirectory : d.isDirectory dir = true) {other : String} (isName : Path.IsName other)
    (apart : other ≠ name) (apart' : other ≠ temporaryName name) :
    d'.isFile (dir.child other) = d.isFile (dir.child other) := by
  obtain ⟨place', atDirectory, isDirectory⟩ := isDirectory_iff.mp isDirectory
  obtain rfl := (h.grown.keeps.leads atDirectory.leads).unique leads
  have lookup : d'.lookup (place' ++ [other]) = g.lookup (place' ++ [other]) := by
    rw [h.lookup_eq (by simpa using apart'), if_neg (by simpa using apart)]
  rw [Bool.eq_iff_iff, isFile_iff, isFile_iff]
  constructor
  · rintro ⟨q, content, resolves, found⟩
    obtain ⟨place, leads', -, short, rfl⟩ := (leads_child_iff dir isName q).mp resolves.leads
    obtain rfl := (h.keeps.leads leads).unique leads'
    have asks := resolves.asksForFile content found
    rw [lookup] at found
    exact ⟨_, content, ⟨resolves.named, resolves.noNul, resolves.short,
      (leads_child_iff dir isName _).mpr ⟨place', atDirectory.leads, isDirectory, short, rfl⟩,
      fun _ _ => asks⟩, h.grown.lookup_eq_file found⟩
  · rintro ⟨q, content, resolves, found⟩
    obtain ⟨place, leads', -, short, rfl⟩ := (leads_child_iff dir isName q).mp resolves.leads
    obtain rfl := atDirectory.leads.unique leads'
    have asks := resolves.asksForFile content found
    exact ⟨_, content, ⟨resolves.named, resolves.noNul, resolves.short,
      h.keeps.leads (h.grown.keeps.leads resolves.leads), fun _ _ => asks⟩,
      lookup.trans (h.grown.lookup_eq_some found)⟩

private theorem filter_fileBelow?_temporaryName {depth : Nat} (deep : 1 ≤ depth) (dir : Path)
    (place : Location) (isName : Path.IsName name) (entry : Entry) :
    (fileBelow? depth dir place (place ++ [temporaryName name], entry)).filter
      (Store.fits documentNames) = none := by
  have isName' := Path.isName_temporaryName isName.noSeparator
  cases entry with
  | directory =>
    rw [fileBelow?_directory]
    rfl
  | file content =>
    rw [fileBelow?_child deep, Option.filter_some, Store.fits_child dir isName',
      isFoundIn_temporaryName]
    rfl

private theorem Grown.files_eq (h : Grown d g) {depth : Nat} (deep : 1 ≤ depth) (dir : Path)
    (place : Location) (isName : Path.IsName name) :
    ((g.entries.filter fun e => e.1 ≠ place ++ [temporaryName name]).filterMap
      (fileBelow? depth dir place)).filter (Store.fits documentNames) =
      (d.entries.filterMap (fileBelow? depth dir place)).filter (Store.fits documentNames) := by
  obtain ⟨places, entries⟩ := h.entries_eq
  have directories : (places.map fun q => (q, Entry.directory)).filterMap
      (fileBelow? depth dir place) = [] := by
    rw [List.filterMap_map, List.filterMap_eq_nil_iff]
    exact fun q _ => fileBelow?_directory depth dir place q
  have grown : g.entries.filterMap (fileBelow? depth dir place) =
      d.entries.filterMap (fileBelow? depth dir place) := by
    rw [entries, List.filterMap_append, directories, List.append_nil]
  rw [← grown, List.filter_filterMap, List.filter_filterMap, List.filterMap_filter]
  refine List.filterMap_congr fun e _ => ?_
  by_cases here : e.1 = place ++ [temporaryName name]
  · have unseen := filter_fileBelow?_temporaryName deep dir place isName e.2
    rw [← here] at unseen
    simp [here, unseen]
  · simp [here]

/-- A new text adds its path to the files that fit, if its name fits. -/
theorem Stored.files_eq (h : Stored d g d' place name text)
    (new : g.lookup (place ++ [name]) = none) (isName : Path.IsName name) {depth : Nat}
    (deep : 1 ≤ depth) (dir : Path) :
    (d'.entries.filterMap (fileBelow? depth dir place)).filter (Store.fits documentNames) =
      (d.entries.filterMap (fileBelow? depth dir place)).filter (Store.fits documentNames) ++
        if documentNames.isFoundIn name then [dir.child name] else [] := by
  have absent : (g.entries.filter fun e => e.1 ≠ place ++ [temporaryName name]).lookup
      (place ++ [name]) = none := by
    rw [lookup_filter_ne (ne_temporary place name)]
    simpa [lookup] using new
  rw [h.entries_eq, setEntry_of_lookup_eq_none absent, List.filterMap_append, List.filter_append,
    h.grown.files_eq deep dir place isName,
    List.filterMap_cons_some (fileBelow?_child deep dir place name _),
    List.filterMap_nil, List.filter_cons, Store.fits_child dir isName, List.filter_nil]

end Stored
end Disk
end ToolTrial
