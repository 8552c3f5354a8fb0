import ToolTrial.Proofs.Arrangement
import ToolTrial.Proofs.Loading
import ToolTrial.Proofs.ManifestDocument
import ToolTrial.Proofs.Store
import ToolTrial.Stages

/-!
What the digest of a manifest tells.  It is taken from the compact text of the document that was
loaded, so it does not depend on how the text of the document was laid out; it does depend on the
arrangement of the document, that is on the order of the keys of every object, and tells documents
of one value apart that are arranged differently.
-/

set_option autoImplicit false
set_option relaxedAutoImplicit false

namespace ToolTrial

def Digest.Collide (cs ds : List Char) : Prop := cs ≠ ds ∧ ofChars cs = ofChars ds

namespace Json

variable {j k : Json}

/-- Documents have one digest only if they are the same, or if their compact texts collide. -/
theorem sha256_eq_iff (wellFormed : j.WellFormed) (wellFormed' : k.WellFormed) :
    j.sha256 = k.sha256 ↔ j = k ∨ Digest.Collide j.compact k.compact := by
  constructor
  · intro equal
    by_cases compact : j.compact = k.compact
    · exact .inl (compact_injective wellFormed wellFormed' compact)
    · exact .inr ⟨compact, equal⟩
  · rintro (rfl | ⟨-, collide⟩)
    · rfl
    · exact collide

theorem parse?_eq_of_tokens? {text text' : String}
    (tokens : tokens? text.toList = tokens? text'.toList) : parse? text = parse? text' := by
  rw [parse?, parse?, read?, read?, tokens]

end Json

namespace LoadedManifest

open Attempt

/-- The report on the scorecard of some runs was made from a loaded manifest. -/
def Scores (l : LoadedManifest) (r : ScoreReport) : Prop :=
  ∃ (kind : Store.Kind) (runs : List Run) (out : Path) (w w' : Workspace),
    (reportScore kind.store l runs out).Gives w r w'

theorem Scores.manifestSha256 {l : LoadedManifest} {r : ScoreReport} (scores : l.Scores r) :
    r.manifestSha256 = l.sha256 := by
  obtain ⟨kind, runs, out, w, w', given⟩ := scores
  simp only [reportScore, gives_bind_iff, gives_during_iff, gives_liftM_iff,
    gives_pure_iff] at given
  obtain ⟨now, w, -, _, _, -, rfl, -⟩ := given
  rfl

private theorem sha256_of_loaded {σ : Type} {store : Store (StateM σ)} {s t : σ} {path : Path}
    {document : Json} {l : LoadedManifest} (held : (store.load path).Gives s document t)
    (loaded : (loadManifest store path).Gives s l t) : l.sha256 = document.sha256 := by
  obtain ⟨document', held', read⟩ := (loadManifest_gives_iff store s t path l).mp loaded
  obtain rfl : document = document' := by
    have := held.symm.trans held'
    simpa using this
  exact ((ofDocument_eq_ok_iff _ _ _).mp read).2.2.2.2

/-- Manifests loaded from documents of one value have one digest, and so have the score reports made
from them, exactly when the documents are arranged alike, unless their texts collide.  What stands
between the tokens of a text plays no part. -/
theorem sha256_eq_iff_arranged {σ τ : Type} {store : Store (StateM σ)} {store' : Store (StateM τ)}
    {s t : σ} {s' t' : τ} {path path' : Path} {document other : Json} {l l' : LoadedManifest}
    (wellFormed : document.WellFormed) (wellFormed' : other.WellFormed)
    (same : document.same other = true)
    (held : (store.load path).Gives s document t) (held' : (store'.load path').Gives s' other t')
    (loaded : (loadManifest store path).Gives s l t)
    (loaded' : (loadManifest store' path').Gives s' l' t') :
    (l.sha256 = l'.sha256 ↔
      document.arranged other = true ∨ Digest.Collide document.compact other.compact) ∧
    (∀ r r', l.Scores r → l'.Scores r' →
      (r.manifestSha256 = r'.manifestSha256 ↔ l.sha256 = l'.sha256)) ∧
    ∀ text text', Json.parse? text = some document → Json.parse? text' = some other →
      Json.tokens? text.toList = Json.tokens? text'.toList → l.sha256 = l'.sha256 := by
  have digest := sha256_of_loaded held loaded
  have digest' := sha256_of_loaded held' loaded'
  rw [digest, digest']
  refine ⟨?_, ?_, ?_⟩
  · rw [Json.sha256_eq_iff wellFormed wellFormed', Json.arranged_iff_eq wellFormed same]
  · intro r r' scores scores'
    rw [scores.manifestSha256, scores'.manifestSha256, digest, digest']
  · intro text text' read read' tokens
    rw [Json.parse?_eq_of_tokens? tokens, read'] at read
    rw [Option.some.inj read]

section Samples

/-- The document of the small experiment, its members in the opposite order. -/
private def turned : Json :=
  match Manifest.pair.toJson with
  | .object members => .object members.reverse
  | j => j

private def twice : Workspace where
  disk := Disk.empty ["work"]
  documents := [(⟨"a.json"⟩, Manifest.pair.toJson), (⟨"b.json"⟩, turned)]
  clock := "now"
  answered := 0

private def straightManifest : LoadedManifest :=
  ⟨Manifest.pair, ⟨"a.json"⟩, Manifest.pair.toJson.sha256⟩

private def turnedManifest : LoadedManifest := ⟨Manifest.pair, ⟨"b.json"⟩, turned.sha256⟩

private theorem twice_loads :
    (loadManifest Store.inMemory ⟨"a.json"⟩).Gives twice straightManifest twice ∧
      (loadManifest Store.inMemory ⟨"b.json"⟩).Gives twice turnedManifest twice := by
  refine ⟨(loadManifest_gives_iff _ _ _ _ _).mpr ⟨Manifest.pair.toJson, rfl, ?_⟩,
    (loadManifest_gives_iff _ _ _ _ _).mpr ⟨turned, rfl, ?_⟩⟩
  · exact ofDocument_toJson _ Manifest.loadable_pair (by decide)
  · exact (ofDocument_eq_ok_iff _ _ _).mpr ⟨by decide +kernel, rfl, Manifest.loadable_pair,
    rfl, rfl⟩

private theorem wellFormed_pair : Manifest.pair.toJson.WellFormed :=
  Json.wellFormed_iff_readable.mpr ⟨4, Manifest.readable_toJson (by decide)⟩

private theorem wellFormed_turned : turned.WellFormed := by
  cases wellFormed_pair with
  | object distinct each =>
    refine .object ?_ fun m inside => each m (List.mem_reverse.mp inside)
    rw [List.map_reverse, List.nodup_reverse]
    exact distinct

theorem sha256_eq_iff_arranged_turned :
    Manifest.pair.toJson.WellFormed ∧ turned.WellFormed ∧
    Manifest.pair.toJson.same turned = true ∧
    (Store.inMemory.load ⟨"a.json"⟩).Gives twice Manifest.pair.toJson twice ∧
    (Store.inMemory.load ⟨"b.json"⟩).Gives twice turned twice ∧
    (loadManifest Store.inMemory ⟨"a.json"⟩).Gives twice straightManifest twice ∧
    (loadManifest Store.inMemory ⟨"b.json"⟩).Gives twice turnedManifest twice ∧
    Manifest.pair.toJson.arranged turned = false ∧
    (straightManifest.sha256 = turnedManifest.sha256 →
      Digest.Collide Manifest.pair.toJson.compact turned.compact) := by
  have same : Manifest.pair.toJson.same turned = true := by decide +kernel
  have apart : Manifest.pair.toJson.arranged turned = false := by decide +kernel
  have held : (Store.inMemory.load ⟨"a.json"⟩).Gives twice Manifest.pair.toJson twice := rfl
  have held' : (Store.inMemory.load ⟨"b.json"⟩).Gives twice turned twice := rfl
  obtain ⟨loaded, loaded'⟩ := twice_loads
  obtain ⟨digests, -⟩ :=
    sha256_eq_iff_arranged wellFormed_pair wellFormed_turned same held held' loaded loaded'
  refine ⟨wellFormed_pair, wellFormed_turned, same, held, held', loaded, loaded', apart, ?_⟩
  intro equal
  simpa [apart] using digests.mp equal

/-- Documents of one value can have different digests. -/
theorem not_sha256_eq_of_same :
    ¬ ∀ (path path' : Path) (document other : Json) (s : Workspace) (l l' : LoadedManifest),
      document.WellFormed → other.WellFormed → document.same other = true →
      (Store.inMemory.load path).Gives s document s → (Store.inMemory.load path').Gives s other s →
      (loadManifest Store.inMemory path).Gives s l s →
      (loadManifest Store.inMemory path').Gives s l' s → l.sha256 = l'.sha256 := by
  intro claim
  have equal := claim ⟨"a.json"⟩ ⟨"b.json"⟩ Manifest.pair.toJson turned twice straightManifest
    turnedManifest wellFormed_pair wellFormed_turned (by decide +kernel) rfl rfl twice_loads.1
    twice_loads.2
  have differ : Manifest.pair.toJson.sha256 ≠ turned.sha256 := by decide +kernel
  exact differ equal

end Samples

end LoadedManifest
end ToolTrial
