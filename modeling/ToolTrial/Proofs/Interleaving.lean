import Mathlib.Data.List.Infix
import Mathlib.Logic.Function.Basic
import ToolTrial.Proofs.Writers

/-!
Two calls that put a text in place under one path, their steps in any order.  They keep what a call
on its own promises when, and only when, at no moment both of them have opened their file and not
moved it.  Otherwise they share a file: what is in place may be empty or both texts over one
another, and one of the calls fails.
-/

set_option autoImplicit false
set_option relaxedAutoImplicit false

namespace ToolTrial

open FileSystem (leadIn)

inductive Side
  | first
  | second
deriving DecidableEq

namespace Side

def other : Side → Side
  | first => second
  | second => first

@[simp]
theorem other_other (side : Side) : side.other.other = side := by
  cases side <;> rfl

@[simp]
theorem other_ne (side : Side) : side.other ≠ side := by
  cases side <;> decide

theorem eq_or_eq_other (side w : Side) : side = w ∨ side = w.other := by
  cases side <;> cases w <;> decide

end Side

/-- Two programs at work on one disk. -/
structure Duo (α : Type) where
  shared : Shared
  courses : Side → Course Shared α

namespace Duo

variable {α : Type}

def step (d : Duo α) (side : Side) : Duo α where
  shared := ((d.courses side).advance d.shared).1
  courses := Function.update d.courses side ((d.courses side).advance d.shared).2

def run (d : Duo α) (schedule : List Side) : Duo α := schedule.foldl step d

theorem run_concat (d : Duo α) (schedule : List Side) (side : Side) :
    d.run (schedule ++ [side]) = (d.run schedule).step side :=
  List.foldl_concat step d side schedule

def holds (d : Duo α) (path : Path) : Except Fault Entry := d.shared.workspace.disk.entry path

/-- Two calls that put a text in place under one path, before their first steps. -/
def writers (w : Workspace) (path : Path) (texts : Side → String) : Duo (Except Failure Unit) where
  shared := ⟨w, []⟩
  courses side := (FileSystem.writeWhole path (texts side) : Attempt (Course Shared) Unit).run

end Duo

/-- After these steps both calls have opened their file and have not moved it. -/
def BothOpen (path : Path) (early : List Side) : Prop :=
  ∀ side, leadIn path < early.count side ∧ early.count side < leadIn path + 3

/-- At some moment of a schedule both calls have opened their file and have not moved it. -/
def Overlap (path : Path) (schedule : List Side) : Prop :=
  ∃ early, early <+: schedule ∧ BothOpen path early

instance (path : Path) (early : List Side) : Decidable (BothOpen path early) :=
  decidable_of_iff
    ((leadIn path < early.count .first ∧ early.count .first < leadIn path + 3) ∧
      (leadIn path < early.count .second ∧ early.count .second < leadIn path + 3))
    ⟨fun ⟨first, second⟩ side => match side with | .first => first | .second => second,
      fun both => ⟨both .first, both .second⟩⟩

instance (path : Path) (schedule : List Side) : Decidable (Overlap path schedule) :=
  decidable_of_iff (∃ early ∈ schedule.inits, BothOpen path early)
    (exists_congr fun early => and_congr_left' (List.mem_inits early schedule))

namespace Overlap

variable {path : Path} {schedule : List Side}

theorem mono {early : List Side} (starts : early <+: schedule) (h : Overlap path early) :
    Overlap path schedule := by
  obtain ⟨moment, before, both⟩ := h
  exact ⟨moment, before.trans starts, both⟩

theorem not_nil : ¬ Overlap path [] := by
  rintro ⟨early, starts, both⟩
  obtain rfl := List.prefix_nil.mp starts
  exact absurd (both .first).1 (Nat.not_lt_zero _)

theorem concat_iff {side : Side} : Overlap path (schedule ++ [side]) ↔
    Overlap path schedule ∨ BothOpen path (schedule ++ [side]) := by
  simp only [Overlap, List.prefix_concat_iff, or_and_right, exists_or, exists_eq_left]
  exact or_comm

end Overlap

/-- What two texts leave in a file that both are written into. -/
def Blend (texts : Side → String) (bytes : ByteArray) : Prop :=
  bytes = .empty ∨ ∃ side, bytes = (texts side).toUTF8 ∨
    bytes = OpenFile.overwrite (texts side).toUTF8 (texts side.other).toUTF8

theorem Blend.overwrite {texts : Side → String} {bytes : ByteArray} (h : Blend texts bytes)
    (side : Side) : Blend texts (OpenFile.overwrite (texts side).toUTF8 bytes) := by
  rcases h with rfl | ⟨w, rfl | rfl⟩
  · exact Or.inr ⟨side, Or.inl (OpenFile.overwrite_empty _)⟩
  · rcases side.eq_or_eq_other w with rfl | rfl
    · exact Or.inr ⟨side, Or.inl (OpenFile.overwrite_of_size_le le_rfl)⟩
    · exact Or.inr ⟨w.other, Or.inr (by rw [Side.other_other])⟩
  · rcases side.eq_or_eq_other w with rfl | rfl
    · exact Or.inr ⟨side, Or.inr (OpenFile.overwrite_overwrite _ _)⟩
    · -- The longer text is all that is left of it and the other one.
      rcases Nat.le_total (texts w.other).toUTF8.size (texts w).toUTF8.size with shorter | longer
      · rw [OpenFile.overwrite_of_size_le shorter]
        exact Or.inr ⟨w.other, Or.inr (by rw [Side.other_other])⟩
      · refine Or.inr ⟨w.other, Or.inl (OpenFile.overwrite_of_size_le ?_)⟩
        rw [OpenFile.overwrite, ByteArray.size_append, ByteArray.size_extract]
        omega

section Promise

variable (w : Workspace) (path : Path) (texts : Side → String) (schedule : List Side)

/-- No part of a text is ever in place, both calls succeed, and one of the texts stays. -/
structure Kept : Prop where
  whole : ∀ early, early <+: schedule →
    ((Duo.writers w path texts).run early).holds path = w.disk.entry path ∨
      ∃ side, ((Duo.writers w path texts).run early).holds path =
        .ok (.file (.text (texts side)))
  returned : ∀ side, ((Duo.writers w path texts).run schedule).courses side = .done (.ok ())
  last : ∃ side, ((Duo.writers w path texts).run schedule).holds path =
    .ok (.file (.text (texts side)))

/-- One of the calls finds nothing to move, and what is in place may be a blend of the texts. -/
structure Lost : Prop where
  blended : ∀ early, early <+: schedule →
    ((Duo.writers w path texts).run early).holds path = w.disk.entry path ∨
      ∃ bytes, Blend texts bytes ∧
        ((Duo.writers w path texts).run early).holds path = .ok (.file (.ofBytes bytes))
  returned : ∃ side,
    ((Duo.writers w path texts).run schedule).courses side = .done (.ok ()) ∧
    ((Duo.writers w path texts).run schedule).courses side.other =
      .done (.error ⟨[.replacing path], .disk .notFound⟩)
  last : ∃ bytes, Blend texts bytes ∧
    ((Duo.writers w path texts).run schedule).holds path = .ok (.file (.ofBytes bytes))

end Promise

section Run

variable {w : Workspace} {path : Path} {name : String} {texts : Side → String}
  {beside target : Location} {schedule : List Side}

def Bench.before (d : Disk) (beside target : Location) : Bench where
  opened := []
  beside := d.lookup beside
  inPlace := d.lookup target

/-- How two calls stand to one another after a schedule. -/
def Stand (w : Workspace) (path : Path) (texts : Side → String) (beside target : Location)
    (schedule : List Side) (b : Bench) (progress : Side → Progress) : Prop :=
  (¬ Overlap path schedule ∧ ∃ side,
    Apart beside target (.before w.disk beside target) (texts side) (texts side.other) b
      (progress side) (progress side.other)) ∨
  (Overlap path schedule ∧ ∃ side,
    Met beside target (.before w.disk beside target) path (Blend texts) b
      (progress side) (progress side.other))

/-- What two calls have come to after a schedule. -/
structure Reached (w : Workspace) (path : Path) (name : String) (texts : Side → String)
    (beside target : Location) (schedule : List Side) (b : Bench) (progress : Side → Progress) :
    Prop where
  shows : ((Duo.writers w path texts).run schedule).shared.Shows w.disk beside target b
  stage : ∀ side, (progress side).Is w.disk path name (texts side)
    (((Duo.writers w path texts).run schedule).courses side)
  after : ∀ side, (progress side).After (leadIn path) (schedule.count side)
  stand : Stand w path texts beside target schedule b progress

private theorem stand_of_apart (w' : Side) {side : Side} {b : Bench} {progress : Side → Progress}
    (soFar : ¬ Overlap path schedule)
    (after : ∀ s, (progress s).After (leadIn path) ((schedule ++ [side]).count s))
    (h : Apart beside target (.before w.disk beside target) (texts w') (texts w'.other) b
      (progress w') (progress w'.other)) :
    Stand w path texts beside target (schedule ++ [side]) b progress := by
  refine Or.inl ⟨?_, w', h⟩
  rw [Overlap.concat_iff]
  rintro (before | both)
  · exact soFar before
  · exact h.not_both (after w') (after w'.other) ⟨both w', both w'.other⟩

private theorem bothOpen_of_underWay {w' side : Side} {progress : Side → Progress}
    (after : ∀ s, (progress s).After (leadIn path) ((schedule ++ [side]).count s))
    (here : (progress w').UnderWay) (there : (progress w'.other).UnderWay) :
    BothOpen path (schedule ++ [side]) := by
  intro s
  rcases s.eq_or_eq_other w' with rfl | rfl
  · exact (after s).of_underWay here
  · exact (after w'.other).of_underWay there

theorem Stand.advance (apart : beside ≠ target) {b b' : Bench} {progress : Side → Progress}
    (h : Stand w path texts beside target schedule b progress) {side : Side} {p' : Progress}
    (step : b.advance beside target path (texts side) (progress side) = (b', p'))
    (after : ∀ s, (Function.update progress side p' s).After (leadIn path)
      ((schedule ++ [side]).count s)) :
    Stand w path texts beside target (schedule ++ [side]) b'
      (Function.update progress side p') := by
  have empty : Blend texts .empty := Or.inl rfl
  have closed (s : Side) (bytes : ByteArray) (blended : Blend texts bytes) :
      Blend texts (OpenFile.overwrite (texts s).toUTF8 bytes) := blended.overwrite s
  have stays (w' : Side) (p : Progress) : Function.update progress w'.other p w' = progress w' :=
    Function.update_of_ne w'.other_ne.symm p progress
  have stays' (w' : Side) (p : Progress) :
      Function.update progress w' p w'.other = progress w'.other :=
    Function.update_of_ne w'.other_ne p progress
  rcases h with ⟨no, w', h⟩ | ⟨met, w', h⟩
  · rcases side.eq_or_eq_other w' with rfl | rfl
    · have next := h.advance_first path rfl apart
      rw [step] at next
      refine stand_of_apart side no after ?_
      rwa [Function.update_self, stays']
    · have next := h.advance_second path rfl apart empty
      rw [step] at next
      -- The call that has just taken a step follows the other one, goes before it, or meets it.
      rcases next with next | next | ⟨here, there, next⟩
      · refine stand_of_apart w' no after ?_
        rwa [Function.update_self, stays]
      · refine stand_of_apart w'.other no after ?_
        rwa [Side.other_other, Function.update_self, stays]
      · have both : BothOpen path (schedule ++ [w'.other]) := by
          apply bothOpen_of_underWay after
          · rwa [stays w']
          · rwa [Function.update_self]
        refine Or.inr ⟨Overlap.concat_iff.mpr (Or.inr both), w', ?_⟩
        rwa [Function.update_self, stays]
  · have overlap : Overlap path (schedule ++ [side]) := Overlap.concat_iff.mpr (Or.inl met)
    rcases side.eq_or_eq_other w' with rfl | rfl
    · have next := h.advance_first apart (closed side)
      rw [step] at next
      refine Or.inr ⟨overlap, side, ?_⟩
      rwa [Function.update_self, stays']
    · have next := h.advance_second apart (closed w'.other)
      rw [step] at next
      rcases next with next | next
      · refine Or.inr ⟨overlap, w', ?_⟩
        rwa [Function.update_self, stays]
      · refine Or.inr ⟨overlap, w'.other, ?_⟩
        rwa [Side.other_other, Function.update_self, stays]

theorem exists_reached (site : w.disk.Site path name beside target)
    (admits : w.disk.Admits path name) (texts : Side → String) (schedule : List Side) :
    ∃ b progress, Reached w path name texts beside target schedule b progress := by
  -- A schedule grows at its end; how the calls stand to one another is kept by each step.
  induction schedule using List.reverseRecOn with
  | nil =>
    refine ⟨.before w.disk beside target, fun _ => .ready (leadIn path), ?_, ?_, ?_, ?_⟩
    · exact ⟨⟨rfl, fun _ found => found⟩, rfl, rfl, rfl, site.freeBeside, site.free,
        by simp [Bench.before]⟩
    · exact fun side => FileSystem.nears_writeWhole path name (texts side) admits
    · exact fun _ => Nat.zero_add _
    · exact Or.inl ⟨Overlap.not_nil, .first, .ready _ _⟩
  | append_singleton schedule side ih =>
    obtain ⟨b, progress, h⟩ := ih
    let next := b.advance beside target path (texts side) (progress side)
    have step := h.shows.advance site (h.stage side)
    have after : ∀ s, (Function.update progress side next.2 s).After (leadIn path)
        ((schedule ++ [side]).count s) := by
      intro s
      rcases s.eq_or_eq_other side with rfl | rfl
      · rw [Function.update_self, List.count_append, List.count_singleton_self]
        exact (h.after s).advance b
      · rw [Function.update_of_ne side.other_ne, List.count_append, List.count_singleton,
          beq_false_of_ne side.other_ne.symm]
        exact h.after side.other
    refine ⟨next.1, Function.update progress side next.2, ?_, ?_, after,
      h.stand.advance site.apart rfl after⟩
    · rw [Duo.run_concat]
      exact step.1
    · intro s
      rw [Duo.run_concat]
      unfold Duo.step
      dsimp only
      rcases s.eq_or_eq_other side with rfl | rfl
      · rw [Function.update_self, Function.update_self]
        exact step.2
      · rw [Function.update_of_ne side.other_ne, Function.update_of_ne side.other_ne]
        exact h.stage side.other

namespace Reached

variable {b : Bench} {progress : Side → Progress}

theorem holds_eq (h : Reached w path name texts beside target schedule b progress)
    (site : w.disk.Site path name beside target) :
    ((Duo.writers w path texts).run schedule).holds path =
      b.inPlace.elim (.error .notFound) .ok := by
  rw [Duo.holds, Disk.entry_eq (h.shows.keeps.resolves site.reaches site.asksForFile),
    h.shows.inPlace_eq]

theorem holds_of_before (h : Reached w path name texts beside target schedule b progress)
    (site : w.disk.Site path name beside target)
    (same : b.inPlace = (Bench.before w.disk beside target).inPlace) :
    ((Duo.writers w path texts).run schedule).holds path = w.disk.entry path := by
  rw [h.holds_eq site, same, Disk.entry_eq site.reaches]
  rfl

theorem holds_of_some (h : Reached w path name texts beside target schedule b progress)
    (site : w.disk.Site path name beside target) {e : Entry} (found : b.inPlace = some e) :
    ((Duo.writers w path texts).run schedule).holds path = .ok e := by
  rw [h.holds_eq site, found, Option.elim_some]

/-- With enough steps each call has returned what its progress says. -/
theorem exists_returned (h : Reached w path name texts beside target schedule b progress)
    (enough : ∀ side, leadIn path + 3 ≤ schedule.count side) (side : Side) :
    ∃ result, progress side = .returned result ∧
      ((Duo.writers w path texts).run schedule).courses side = .done result := by
  obtain ⟨result, returned⟩ := (h.after side).returned (enough side)
  have come := h.stage side
  rw [returned] at come
  exact ⟨result, returned, come⟩

end Reached

theorem kept_of_not_overlap (admits : w.disk.Admits path name) (texts : Side → String)
    (enough : ∀ side, leadIn path + 3 ≤ schedule.count side) (no : ¬ Overlap path schedule) :
    Kept w path texts schedule := by
  obtain ⟨beside, target, site⟩ := admits.exists_site
  have apart {early : List Side} (starts : early <+: schedule) :
      ∃ b progress side, Reached w path name texts beside target early b progress ∧
        Apart beside target (.before w.disk beside target) (texts side) (texts side.other) b
          (progress side) (progress side.other) := by
    obtain ⟨b, progress, h⟩ := exists_reached site admits texts early
    rcases h.stand with ⟨-, side, apart⟩ | ⟨overlap, -⟩
    · exact ⟨b, progress, side, h, apart⟩
    · exact absurd (overlap.mono starts) no
  obtain ⟨b, progress, side, h, last⟩ := apart (List.prefix_refl schedule)
  obtain ⟨result, returned, done⟩ := h.exists_returned enough side
  obtain ⟨result', returned', done'⟩ := h.exists_returned enough side.other
  rw [returned, returned'] at last
  obtain ⟨rfl, rfl, inPlace⟩ := last.of_returned
  refine ⟨fun early starts => ?_, fun s => ?_, side.other, h.holds_of_some site inPlace⟩
  · obtain ⟨b, progress, side, h, apart⟩ := apart starts
    rcases apart.inPlace with before | text | later
    · exact Or.inl (h.holds_of_before site before)
    · exact Or.inr ⟨side, h.holds_of_some site text⟩
    · exact Or.inr ⟨side.other, h.holds_of_some site later⟩
  · rcases s.eq_or_eq_other side with rfl | rfl
    · exact done
    · exact done'

theorem lost_of_overlap (admits : w.disk.Admits path name) (texts : Side → String)
    (enough : ∀ side, leadIn path + 3 ≤ schedule.count side) (overlap : Overlap path schedule) :
    Lost w path texts schedule := by
  obtain ⟨beside, target, site⟩ := admits.exists_site
  have text (side : Side) : ∃ bytes, Blend texts bytes ∧
      (.text (texts side) : Content) = .ofBytes bytes :=
    ⟨(texts side).toUTF8, Or.inr ⟨side, Or.inl rfl⟩, (Content.ofBytes_toUTF8 _).symm⟩
  obtain ⟨b, progress, h⟩ := exists_reached site admits texts schedule
  obtain ⟨side, met⟩ : ∃ side, Met beside target (.before w.disk beside target) path (Blend texts) b
      (progress side) (progress side.other) := by
    rcases h.stand with ⟨no, -⟩ | ⟨-, met⟩
    · exact absurd overlap no
    · exact met
  obtain ⟨result, returned, done⟩ := h.exists_returned enough side
  obtain ⟨result', returned', done'⟩ := h.exists_returned enough side.other
  rw [returned, returned'] at met
  obtain ⟨rfl, rfl, bytes, blended, inPlace⟩ := met.of_returned
  refine ⟨fun early _ => ?_, ⟨side, done, done'⟩, bytes, blended, h.holds_of_some site inPlace⟩
  obtain ⟨b, progress, h⟩ := exists_reached site admits texts early
  rcases h.stand with ⟨-, side, apart⟩ | ⟨-, side, met⟩
  · rcases apart.inPlace with before | here | later
    · exact Or.inl (h.holds_of_before site before)
    · obtain ⟨bytes, blended, same⟩ := text side
      exact Or.inr ⟨bytes, blended, same ▸ h.holds_of_some site here⟩
    · obtain ⟨bytes, blended, same⟩ := text side.other
      exact Or.inr ⟨bytes, blended, same ▸ h.holds_of_some site later⟩
  · rcases met.inPlace with before | ⟨bytes, blended, here⟩
    · exact Or.inl (h.holds_of_before site before)
    · exact Or.inr ⟨bytes, blended, h.holds_of_some site here⟩

/-- Two calls under one path keep what they promise if and only if they never have two open files at
once, and otherwise one of them fails. -/
theorem writers_kept_iff (admits : w.disk.Admits path name) (texts : Side → String)
    (enough : ∀ side, leadIn path + 3 ≤ schedule.count side) :
    (Kept w path texts schedule ↔ ¬ Overlap path schedule) ∧
      (Overlap path schedule → Lost w path texts schedule) := by
  refine ⟨⟨fun kept overlap => ?_, kept_of_not_overlap admits texts enough⟩,
    lost_of_overlap admits texts enough⟩
  obtain ⟨side, -, fails⟩ := (lost_of_overlap admits texts enough overlap).returned
  have succeeds := kept.returned side.other
  rw [fails] at succeeds
  cases succeeds

end Run

section Samples

private def report : Path := ⟨"out/report.json"⟩

private def withReport : Workspace where
  disk := ((Disk.empty ["work"]).put ["work", "out"] .directory).put ["work", "out", "report.json"]
    (.file (.text "old"))
  documents := []
  clock := "now"
  answered := 0

private def drafts : Side → String
  | .first => "first"
  | .second => "second"

private def inTurn : List Side := List.replicate 5 .first ++ List.replicate 5 .second

/-- The second call opens its file between the first one's writing and moving, and the first one
moves it then. -/
private def crossed : List Side :=
  List.replicate 4 .first ++ List.replicate 3 .second ++ [.first] ++ List.replicate 2 .second

private theorem admits_report : withReport.disk.Admits report "report.json" := by
  refine ⟨by decide +kernel, by decide +kernel, fun upper parent _ => ?_,
    ⟨["work", "out", "report.json"], Disk.resolve_eq_ok_iff.mp (by decide +kernel),
      by decide +kernel⟩,
    ⟨["work", "out", "report.json.tmp"], Disk.resolve_eq_ok_iff.mp (by decide +kernel),
      by decide +kernel⟩⟩
  have out : report.parent? = some ⟨"out"⟩ := by decide +kernel
  obtain rfl := Option.some.inj (out.symm.trans parent)
  decide +kernel

private theorem enough_inTurn : ∀ side, leadIn report + 3 ≤ inTurn.count side := by
  rintro (_ | _) <;> decide +kernel

private theorem enough_crossed : ∀ side, leadIn report + 3 ≤ crossed.count side := by
  rintro (_ | _) <;> decide +kernel

theorem writers_kept_report : Kept withReport report drafts inTurn ∧
    Lost withReport report drafts crossed := by
  have apart : ¬ Overlap report inTurn := by decide +kernel
  have overlap : Overlap report crossed := by decide +kernel
  exact ⟨(writers_kept_iff admits_report drafts enough_inTurn).1.mpr apart,
    (writers_kept_iff admits_report drafts enough_crossed).2 overlap⟩

/-- The calls do not keep what they promise in every order of their steps. -/
theorem not_writers_always_kept : ¬ ∀ (w : Workspace) (path : Path) (name : String)
    (texts : Side → String) (schedule : List Side), w.disk.Admits path name →
    (∀ side, leadIn path + 3 ≤ schedule.count side) → Kept w path texts schedule := by
  intro all
  have kept := all withReport report "report.json" drafts crossed admits_report enough_crossed
  -- Nothing is in place when the first call has moved the file that the second one has opened.
  have empty : ((Duo.writers withReport report drafts).run
      (List.replicate 4 .first ++ List.replicate 3 .second ++ [.first])).holds report =
        .ok (.file (.text "")) := by
    decide +kernel
  rcases kept.whole _ (List.prefix_append _ _) with old | ⟨side, whole⟩
  · rw [empty] at old
    exact absurd old (by decide +kernel)
  · rw [empty] at whole
    cases side <;> exact absurd whole (by decide +kernel)

end Samples

end ToolTrial
