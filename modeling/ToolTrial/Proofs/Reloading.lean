import ToolTrial.Proofs.Acceptance
import ToolTrial.Proofs.Manifest
import ToolTrial.Proofs.ManifestDocument
import ToolTrial.Proofs.Rounding
import ToolTrial.Proofs.RunDocument

/-!
What is encoded can be loaded again.  The numbers of a run that was decoded fit their formats, so
its own document keeps to the schema and stands for it, whatever document it was decoded from.
-/

set_option autoImplicit false
set_option relaxedAutoImplicit false

namespace ToolTrial

open Json (Decoder DecodeError Member Record)

namespace Json.Decoder

theorem isSigned_of_signed {j : Json} {n : Int} (decoded : signed j = .ok n) : IsSigned n := by
  cases j with
  | integer k =>
    simp only [signed, integerIn] at decoded
    split at decoded
    · rename_i within
      obtain rfl : k = n := by simpa using decoded
      exact within
    · simp at decoded
  | _ => simp [signed, integerIn] at decoded

theorem isFinite_of_float {j : Json} {x : Float} (good : j.WellFormed) (decoded : float j = .ok x) :
    x.isFinite = true := by
  cases good with
  | integer least greatest =>
    obtain rfl := Except.ok.inj decoded
    exact Number.isFinite_ofInt least greatest
  | float finite =>
    obtain rfl := Except.ok.inj decoded
    exact finite
  | _ => simp [float] at decoded

theorem decode_of_optional {α : Type} {decode : Decoder α} {j : Json} {o : Option α} {a : α}
    (decoded : optional decode j = .ok o) (inside : a ∈ o) : decode j = .ok a := by
  obtain rfl : o = some a := inside
  by_cases null : j = .null
  · subst null
    simp [optional] at decoded
  · have value : optional decode j = (decode j).map some := by
      cases j with
      | null => exact absurd rfl null
      | _ => rfl
    rw [value] at decoded
    cases read : decode j with
    | error e => simp [read, Except.map] at decoded
    | ok b =>
      obtain rfl : b = a := by simpa [read, Except.map] using decoded
      rfl

end Json.Decoder

namespace Json.Record

variable {α : Type} {members : List Member} {r : Record} {name : String} {decode : Decoder α}

theorem exists_of_omissible {o : Option α} {a : α} (decoded : r.omissible name decode = .ok o)
    (inside : a ∈ o) : ∃ i, member? name r.values = some i ∧ decode i = .ok a := by
  rw [omissible, orDefault] at decoded
  split at decoded
  · rename_i i found
    exact ⟨i, found, Decoder.decode_of_optional decoded inside⟩
  · obtain rfl := Except.ok.inj decoded
    cases inside

theorem forall_of_omissible {P : α → Prop} {o : Option α} (each : ∀ i a, decode i = .ok a → P a)
    (decoded : r.omissible name decode = .ok o) : ∀ a ∈ o, P a := by
  intro a inside
  obtain ⟨i, -, read⟩ := exists_of_omissible decoded inside
  exact each i a read

theorem wellFormed_of_scan {given values : List (String × Json)}
    (good : ∀ e ∈ given, e.2.WellFormed) (scanned : scan members [] given = .ok values) :
    ∀ e ∈ values, e.2.WellFormed := by
  obtain ⟨-, -, -, rfl⟩ := (scan_eq_ok_iff []).mp scanned
  intro e inside
  obtain ⟨e', inside', found⟩ := List.mem_filterMap.mp inside
  obtain ⟨m, -, rfl⟩ := Option.map_eq_some_iff.mp found
  exact good e' inside'

theorem wellFormed_of_read {j : Json} (good : j.WellFormed) (opened : read name members j = .ok r) :
    ∀ e ∈ r.values, e.2.WellFormed := by
  cases good with
  | @object given distinct each =>
    simp only [read, ofObject, bind_eq_ok_iff, pure_eq_ok_iff] at opened
    obtain ⟨values, scanned, rfl⟩ := opened
    exact wellFormed_of_scan each scanned
  | @array items each =>
    simp only [read, ofItems, bind_eq_ok_iff] at opened
    obtain ⟨values, scanned, rest⟩ := opened
    split at rest
    · simp [throw, throwThe, MonadExceptOf.throw] at rest
    · obtain rfl := Except.ok.inj rest
      apply wellFormed_of_scan ?_ scanned
      intro e inside
      exact each e.2 (List.of_mem_zip inside).2
  | _ => simp [read] at opened

theorem exists_wellFormed_of_required {j : Json} {a : α} (good : j.WellFormed) {recordName : String}
    (opened : read recordName members j = .ok r) (decoded : r.required name decode = .ok a) :
    ∃ i : Json, i.WellFormed ∧ decode i = .ok a := by
  rw [required] at decoded
  split at decoded
  · rename_i i found
    exact ⟨i, wellFormed_of_read good opened _ (mem_of_member? found), decoded⟩
  · simp at decoded

end Json.Record

theorem TokenUsage.encodable_of_decode {j : Json} {u : TokenUsage} (decoded : decode j = .ok u) :
    u.Encodable := by
  have small (i : Json) (n : Nat) (read : Decoder.largeCount i = .ok n) : n < bound :=
    Decoder.lt_of_natural read
  simp only [decode, bind_eq_ok_iff, pure_eq_ok_iff] at decoded
  obtain ⟨r, -, input, first, output, second, total, third, rfl⟩ := decoded
  exact ⟨Record.forall_of_omissible small first, Record.forall_of_omissible small second,
    Record.forall_of_omissible small third⟩

theorem Reflection.isSigned_of_decode {j : Json} {f : Reflection} (decoded : decode j = .ok f) :
    ∀ n ∈ f.helpfulness, IsSigned n := by
  simp only [decode, bind_eq_ok_iff, pure_eq_ok_iff] at decoded
  obtain ⟨r, -, summary, -, helpful, -, unhelpful, -, score, scored, rfl⟩ := decoded
  exact Record.forall_of_omissible (fun _ _ => Decoder.isSigned_of_signed) scored

theorem Run.encodable_tokens_of_decode {j : Json} {run : Run} (decoded : decode j = .ok run) :
    ∀ u ∈ run.tokenUsage, u.Encodable := by
  simp only [decode, bind_eq_ok_iff, pure_eq_ok_iff] at decoded
  obtain ⟨r, -, runId, -, taskId, -, conditionId, -, replicate, -, agent, -, model, -, succeeded, -,
    compiled, -, tested, -, duration, -, offered, -, calls, -, usage, used, reflection, -, rfl⟩ :=
      decoded
  exact Record.forall_of_omissible (fun _ _ => TokenUsage.encodable_of_decode) used

/-- The numbers of a run that was decoded are such as a document can carry. -/
theorem Run.encodable_of_decode {j : Json} {run : Run} (good : j.WellFormed)
    (decoded : decode j = .ok run) : run.Encodable := by
  have tokens := encodable_tokens_of_decode decoded
  simp only [decode, bind_eq_ok_iff, pure_eq_ok_iff] at decoded
  obtain ⟨r, opened, runId, -, taskId, -, conditionId, -, replicate, replicated, agent, -, model, -,
    succeeded, -, compiled, -, tested, -, duration, lasted, offered, -, calls, -, usage, -,
    reflection, reflected, rfl⟩ := decoded
  obtain ⟨i, whole, read⟩ := Record.exists_wellFormed_of_required good opened lasted
  have signed (i : Json) (n : Int) : Decoder.signed i = .ok n → IsSigned n :=
    Decoder.isSigned_of_signed
  refine ⟨Decoder.isFinite_of_float whole read, Record.forall_of_omissible signed replicated, ?_,
    tokens⟩
  intro n score
  obtain ⟨f, said, scored⟩ := Option.bind_eq_some_iff.mp score
  exact Record.forall_of_omissible (fun _ _ => Reflection.isSigned_of_decode) reflected f said
    n scored

/-- Manifests and runs are loaded again from their own documents.  So is a run that was decoded,
whether or not the document that it was decoded from kept to the schema. -/
theorem encoded_reloads :
    (∀ m : Manifest, m.runsPerCell < UInt32.size →
      Schema.manifest.Accepts m.toJson ∧ Manifest.decode m.toJson = .ok m) ∧
    (∀ run : Run, run.Encodable → Schema.run.Accepts run.toJson ∧ Run.decode run.toJson = .ok run) ∧
    ∀ (j : Json) (run : Run), j.WellFormed → Run.decode j = .ok run →
      Schema.run.Accepts run.toJson ∧ Run.decode run.toJson = .ok run := by
  have encoded (run : Run) (h : run.Encodable) :
      Schema.run.Accepts run.toJson ∧ Run.decode run.toJson = .ok run :=
    ⟨Run.accepts_toJson run h.finite, Run.decode_toJson h⟩
  refine ⟨?_, encoded, ?_⟩
  · intro m small
    exact ⟨Manifest.accepts_toJson m, Manifest.decode_toJson small⟩
  · intro j run good decoded
    exact encoded run (Run.encodable_of_decode good decoded)

theorem encoded_reloads_small :
    Manifest.decode Manifest.pair.toJson = .ok Manifest.pair ∧
      Run.decode (Run.ofPair "1" "plain" (some 2) []).toJson =
        .ok (Run.ofPair "1" "plain" (some 2) []) ∧
      ∃ run, Run.decode Run.withOlderScore = .ok run ∧ run.helpfulness = some 4 ∧
        Schema.run.Accepts run.toJson ∧ Run.decode run.toJson = .ok run := by
  have encodable : (Run.ofPair "1" "plain" (some 2) []).Encodable := by
    refine ⟨by decide +kernel, ?_, by simp [Run.ofPair, Run.helpfulness], by simp [Run.ofPair]⟩
    intro n replicate
    obtain rfl : 2 = n := by simpa [Run.ofPair] using replicate
    exact ⟨by decide, by decide⟩
  refine ⟨(encoded_reloads.1 Manifest.pair (by decide)).2, (encoded_reloads.2.1 _ encodable).2, ?_⟩
  obtain ⟨run, decoded, score⟩ : ∃ run, Run.decode Run.withOlderScore = .ok run ∧
      run.helpfulness = some 4 := ⟨_, rfl, rfl⟩
  have again := encoded_reloads.2.2 Run.withOlderScore run Run.wellFormed_withOlderScore decoded
  exact ⟨run, decoded, score, again.1, again.2⟩

end ToolTrial
