import ToolTrial.Experiment.Codec
import ToolTrial.Proofs.Reading
import ToolTrial.Proofs.WellFormed

/-!
Schemas against decoders.  Both describe manifests and runs; a document that the schema accepts is
read unless it writes an integer as a float, an integer leaves its format, or a score is given under
both of its names.
-/

set_option autoImplicit false
set_option relaxedAutoImplicit false

namespace ToolTrial

open Json (Decoder Member Record)

namespace Schema

/-- Every well-formed document that the schema accepts is read. -/
def Agrees {α : Type} (schema : Schema) (decode : Decoder α) : Prop :=
  ∀ j : Json, j.WellFormed → schema.Accepts j → decode.Reads j

theorem any_of_accepts {kinds : List Kind} {rest : Schema} {j : Json}
    (accepted : (ofKind kinds rest).Accepts j) : kinds.any (·.includes j) = true :=
  ((accepts_ofKind_iff kinds rest j).mp accepted).1

theorem agrees_text : (just .string).Agrees Decoder.text := by
  intro j _ accepted
  have kind := any_of_accepts accepted
  cases j <;> simp_all [Kind.includes, Decoder.reads_text_iff]

theorem agrees_boolean : (just .boolean).Agrees Decoder.boolean := by
  intro j _ accepted
  have kind := any_of_accepts accepted
  cases j <;> simp_all [Kind.includes, Decoder.reads_boolean_iff]

theorem agrees_float : (just .number).Agrees Decoder.float := by
  intro j _ accepted
  have kind := any_of_accepts accepted
  cases j <;> simp_all [Kind.includes, Decoder.Reads, Decoder.float]

theorem agrees_path : (just .string).Agrees Path.decode := by
  intro j _ accepted
  have kind := any_of_accepts accepted
  cases j <;> simp_all [Kind.includes, Decoder.Reads, Path.decode]

theorem agrees_listOf {α : Type} {schema : Schema} {decode : Decoder α}
    (agrees : schema.Agrees decode) : (listOf schema).Agrees (Decoder.list decode) := by
  intro j good accepted
  have kind := any_of_accepts accepted
  cases good with
  | @array items each =>
    rw [accepts_listOf_array] at accepted
    rw [Decoder.reads_list_iff]
    exact ⟨items, rfl, fun i inside => agrees i (each i inside) (accepted i inside)⟩
  | _ => simp [Kind.includes] at kind

theorem agrees_optional {α : Type} {decode : Decoder α} {kind : Kind}
    (agrees : (just kind).Agrees decode) {kinds : List Kind}
    (same : kinds = [.null, kind] ∨ kinds = [kind, .null]) :
    (ofKind kinds .anything).Agrees (Decoder.optional decode) := by
  intro j good accepted
  rw [Decoder.reads_optional_iff]
  have either : Kind.includes .null j = true ∨ kind.includes j = true := by
    rcases same with rfl | rfl
    · simpa using any_of_accepts accepted
    · simpa [or_comm] using any_of_accepts accepted
  rcases either with null | value
  · left
    cases j <;> simp_all [Kind.includes]
  · right
    apply agrees j good
    rw [just, accepts_ofKind_iff]
    simpa using value

theorem exists_of_accepts_record {needed : List String} {members : List (String × Schema)}
    {j : Json} (accepted : (record needed members).Accepts j) :
    ∃ given, j = .object given ∧
      (∀ name ∈ needed, (Json.member? name given).isSome = true) ∧
        ∀ m ∈ members, ∀ value ∈ Json.member? m.1 given, m.2.Accepts value := by
  have kind := any_of_accepts accepted
  cases j with
  | object given => exact ⟨given, rfl, (accepts_record_iff needed members given).mp accepted⟩
  | _ => simp [Kind.includes] at kind

end Schema

theorem Json.wellFormed_object_iff {given : List (String × Json)} :
    Json.WellFormed (.object given) ↔
      (given.map Prod.fst).Nodup ∧ ∀ m ∈ given, Json.WellFormed m.2 := by
  constructor
  · rintro (_ | _ | _ | _ | _ | _ | ⟨distinct, each⟩)
    exact ⟨distinct, each⟩
  · rintro ⟨distinct, each⟩
    exact .object distinct each

def Json.MayBeIntegerIn (least greatest : Int) (key : String) (j : Json) : Prop :=
  ∀ value ∈ j.get? key, value = .null ∨ value.IsIntegerIn least greatest

theorem Json.forall_reads_optional_iff {α : Type} {decode : Decoder α} {least greatest : Int}
    (integer : ∀ j, decode.Reads j ↔ j.IsIntegerIn least greatest) (given : List (String × Json))
    (key : String) : (∀ j ∈ Json.member? key given, (Decoder.optional decode).Reads j) ↔
      (Json.object given).MayBeIntegerIn least greatest key := by
  refine forall₂_congr fun j _ => ?_
  rw [Decoder.reads_optional_iff, integer]

theorem Json.Decoder.reads_signed_iff (j : Json) : Decoder.signed.Reads j ↔
    j.IsIntegerIn (-9223372036854775808) 9223372036854775807 :=
  Decoder.reads_integerIn_iff _ _ _ j

theorem Json.Decoder.reads_largeCount_iff (j : Json) : Decoder.largeCount.Reads j ↔
    j.IsIntegerIn 0 18446744073709551615 :=
  Decoder.reads_natural_iff _ _ j

theorem Json.Decoder.reads_optional_object_iff {α : Type} {decode : Decoder α} {rest : Schema}
    {j : Json} (accepted : (Schema.ofKind [.null, .object] rest).Accepts j) :
    (Decoder.optional decode).Reads j ↔ ∀ given, j = .object given → decode.Reads j := by
  have kind := Schema.any_of_accepts accepted
  rw [Decoder.reads_optional_iff]
  cases j with
  | null => simp
  | object given => simp
  | _ => simp [Kind.includes] at kind

theorem Json.Member.Fits.of_agrees {α : Type} {given : List (String × Json)} {schema : Schema}
    {decode : Decoder α} {name : String} (good : Json.WellFormed (.object given))
    (agrees : schema.Agrees decode)
    (accepted : ∀ value ∈ Json.member? name given, schema.Accepts value) :
    (Member.of name decode).Fits given := by
  obtain ⟨distinct, each⟩ := Json.wellFormed_object_iff.mp good
  rw [Member.fits_of_iff distinct]
  intro j found
  exact agrees j (each _ (Json.mem_of_member? found)) (accepted j found)

namespace Condition

theorem reads_object_iff (given : List (String × Json)) : decode.Reads (.object given) ↔
    (∀ m ∈ members, m.Fits given) ∧
      ∀ key ∈ ["id", "tools_enabled"], (Json.member? key given).isSome = true := by
  refine Record.reads_object_iff (by decide) _ (by simp [members, Member.of]) ?_
  intro r sound
  have all : members = [_, _, _, _] := rfl
  simp [Record.exists_bind_eq_ok_iff, Record.exists_pure_eq_ok, Record.omissible,
    Record.exists_required_iff sound, Record.exists_orDefault sound, all, -bind_pure_comp,
    -Bool.exists_bool]

theorem agrees : Schema.condition.Agrees decode := by
  intro j good accepted
  obtain ⟨given, rfl, needed, each⟩ := Schema.exists_of_accepts_record accepted
  simp only [List.forall_mem_cons] at each
  obtain ⟨id, name, tools, notes, -⟩ := each
  rw [reads_object_iff]
  refine ⟨?_, needed⟩
  simp only [members, List.forall_mem_cons]
  exact ⟨.of_agrees good Schema.agrees_text id, .of_agrees good Schema.agrees_text name,
    .of_agrees good Schema.agrees_boolean tools,
    .of_agrees good (Schema.agrees_optional Schema.agrees_text (.inl rfl)) notes, by simp⟩

end Condition

namespace Task

theorem reads_object_iff (given : List (String × Json)) : decode.Reads (.object given) ↔
    (∀ m ∈ members, m.Fits given) ∧
      ∀ key ∈ ["id", "repo", "commit"], (Json.member? key given).isSome = true := by
  refine Record.reads_object_iff (by decide) _ (by simp [members, Member.of]) ?_
  intro r sound
  have all : members = [_, _, _, _, _, _, _] := rfl
  simp [Record.exists_bind_eq_ok_iff, Record.exists_pure_eq_ok, Record.omissible,
    Record.exists_required_iff sound, Record.exists_orDefault sound, all, -bind_pure_comp,
    -Bool.exists_bool]

theorem agrees : Schema.task.Agrees decode := by
  intro j good accepted
  obtain ⟨given, rfl, needed, each⟩ := Schema.exists_of_accepts_record accepted
  simp only [List.forall_mem_cons] at each
  obtain ⟨id, title, repo, commit, checks, prompt, url, -⟩ := each
  rw [reads_object_iff]
  refine ⟨?_, needed⟩
  simp only [members, List.forall_mem_cons]
  exact ⟨.of_agrees good Schema.agrees_text id, .of_agrees good Schema.agrees_text title,
    .of_agrees good Schema.agrees_text repo, .of_agrees good Schema.agrees_text commit,
    .of_agrees good (Schema.agrees_listOf Schema.agrees_text) checks,
    .of_agrees good (Schema.agrees_optional Schema.agrees_path (.inl rfl)) prompt,
    .of_agrees good (Schema.agrees_optional Schema.agrees_text (.inl rfl)) url, by simp⟩

end Task

namespace Manifest

theorem reads_object_iff (given : List (String × Json)) : decode.Reads (.object given) ↔
    (∀ m ∈ members, m.Fits given) ∧
      ∀ key ∈ ["experiment_id", "conditions", "tasks", "runs_per_cell"],
        (Json.member? key given).isSome = true := by
  refine Record.reads_object_iff (by decide) _ (by simp [members, Member.of]) ?_
  intro r sound
  have all : members = [_, _, _, _, _, _] := rfl
  simp [Record.exists_bind_eq_ok_iff, Record.exists_pure_eq_ok,
    Record.exists_required_iff sound, Record.exists_orDefault sound, all, -bind_pure_comp,
    -Bool.exists_bool]

theorem reads_iff_of_accepts {j : Json} (good : j.WellFormed)
    (accepted : Schema.manifest.Accepts j) :
    decode.Reads j ↔
      ∃ n, j.get? "runs_per_cell" = some (.integer n) ∧ 0 ≤ n ∧ n ≤ 4294967295 := by
  obtain ⟨given, rfl, needed, each⟩ := Schema.exists_of_accepts_record accepted
  obtain ⟨distinct, -⟩ := Json.wellFormed_object_iff.mp good
  simp only [List.forall_mem_cons] at each
  obtain ⟨id, description, starts, conditions, tasks, -, -⟩ := each
  have fits : (∀ m ∈ members, m.Fits given) ↔
      (Member.of "runs_per_cell" Decoder.smallCount).Fits given := by
    simp only [members, List.forall_mem_cons]
    constructor
    · rintro ⟨-, -, -, -, -, runs, -⟩
      exact runs
    · intro runs
      exact ⟨.of_agrees good Schema.agrees_text id,
        .of_agrees good Schema.agrees_text description,
        .of_agrees good (Schema.agrees_listOf Schema.agrees_text) starts,
        .of_agrees good (Schema.agrees_listOf Condition.agrees) conditions,
        .of_agrees good (Schema.agrees_listOf Task.agrees) tasks, runs, by simp⟩
  have read : (∀ j ∈ Json.member? "runs_per_cell" given, Decoder.smallCount.Reads j) ↔
      ∃ n, Json.member? "runs_per_cell" given = some (.integer n) ∧ 0 ≤ n ∧ n ≤ 4294967295 := by
    have there : (Json.member? "runs_per_cell" given).isSome = true := needed _ (by simp)
    obtain ⟨j, found⟩ := Option.isSome_iff_exists.mp there
    rw [found]
    simp only [Option.mem_some, forall_eq', Option.some.injEq]
    exact Decoder.reads_natural_iff UInt32.size "u32" j
  rw [reads_object_iff, fits, Member.fits_of_iff distinct, read]
  exact and_iff_left needed

end Manifest

namespace ToolCall

theorem reads_object_iff (given : List (String × Json)) : decode.Reads (.object given) ↔
    (∀ m ∈ members, m.Fits given) ∧
      ∀ key ∈ ["tool_name", "ok"], (Json.member? key given).isSome = true := by
  refine Record.reads_object_iff (by decide) _ (by simp [members, Member.of]) ?_
  intro r sound
  have all : members = [_, _] := rfl
  simp [Record.exists_bind_eq_ok_iff, Record.exists_pure_eq_ok,
    Record.exists_required_iff sound, all, -bind_pure_comp,
    -Bool.exists_bool]

theorem agrees : (Schema.record ["tool_name", "ok"]
    [("tool_name", Schema.just .string), ("ok", Schema.just .boolean)]).Agrees decode := by
  intro j good accepted
  obtain ⟨given, rfl, needed, each⟩ := Schema.exists_of_accepts_record accepted
  simp only [List.forall_mem_cons] at each
  obtain ⟨name, ok, -⟩ := each
  rw [reads_object_iff]
  refine ⟨?_, needed⟩
  simp only [members, List.forall_mem_cons]
  exact ⟨.of_agrees good Schema.agrees_text name, .of_agrees good Schema.agrees_boolean ok,
    by simp⟩

end ToolCall

namespace TokenUsage

theorem reads_object_iff (given : List (String × Json)) : decode.Reads (.object given) ↔
    (∀ m ∈ members, m.Fits given) ∧
      ∀ key ∈ ([] : List String), (Json.member? key given).isSome = true := by
  refine Record.reads_object_iff (by decide) _ (by simp [members, Member.of]) ?_
  intro r sound
  have all : members = [_, _, _] := rfl
  simp [Record.exists_bind_eq_ok_iff, Record.exists_pure_eq_ok, Record.omissible,
    Record.exists_orDefault sound, all, -bind_pure_comp,
    -Bool.exists_bool]

theorem reads_object_iff_counts {given : List (String × Json)}
    (distinct : (given.map Prod.fst).Nodup) :
    decode.Reads (.object given) ↔ ∀ key ∈ ["input_tokens", "output_tokens", "total_tokens"],
      (Json.object given).MayBeIntegerIn 0 18446744073709551615 key := by
  rw [reads_object_iff]
  simp only [members, List.forall_mem_cons, Member.fits_of_iff distinct,
    Json.forall_reads_optional_iff Decoder.reads_largeCount_iff]
  simp

end TokenUsage

namespace Reflection

theorem reads_object_iff (given : List (String × Json)) : decode.Reads (.object given) ↔
    (∀ m ∈ members, m.Fits given) ∧
      ∀ key ∈ ([] : List String), (Json.member? key given).isSome = true := by
  refine Record.reads_object_iff (by decide) _ (by simp [members, Member.of]) ?_
  intro r sound
  have all : members = [_, _, _, _] := rfl
  have score : ∃ a, r.orDefault "roslyn_helpfulness_score" none (Decoder.optional Decoder.signed) =
      .ok a := by
    have declared : (Member.of "roslyn_helpfulness_score" (Decoder.optional Decoder.signed)).orNamed
        "helpfulness_score" ∈ members := by simp [members]
    exact Record.exists_orDefault_of_check sound declared rfl none
  simp [Record.exists_bind_eq_ok_iff, Record.exists_pure_eq_ok, Record.omissible,
    Record.exists_orDefault sound, score, all, -bind_pure_comp,
    -Bool.exists_bool]

theorem reads_object_iff_score {given : List (String × Json)}
    (good : Json.WellFormed (.object given))
    (summary : ∀ j ∈ Json.member? "summary" given, (Schema.just .string).Accepts j)
    (helpful : ∀ j ∈ Json.member? "helpful_tools" given,
      (Schema.listOf (Schema.just .string)).Accepts j)
    (unhelpful : ∀ j ∈ Json.member? "unhelpful_tools" given,
      (Schema.listOf (Schema.just .string)).Accepts j) :
    decode.Reads (.object given) ↔
      ¬((Json.member? "roslyn_helpfulness_score" given).isSome ∧
          (Json.member? "helpfulness_score" given).isSome) ∧
        ∀ key ∈ ["roslyn_helpfulness_score", "helpfulness_score"],
          (Json.object given).MayBeIntegerIn (-9223372036854775808) 9223372036854775807 key := by
  obtain ⟨distinct, -⟩ := Json.wellFormed_object_iff.mp good
  have fits : (∀ m ∈ members, m.Fits given) ↔
      ((Member.of "roslyn_helpfulness_score" (Decoder.optional Decoder.signed)).orNamed
        "helpfulness_score").Fits given := by
    simp only [members, List.forall_mem_cons]
    constructor
    · rintro ⟨-, -, -, score, -⟩
      exact score
    · intro score
      exact ⟨.of_agrees good Schema.agrees_text summary,
        .of_agrees good (Schema.agrees_listOf Schema.agrees_text) helpful,
        .of_agrees good (Schema.agrees_listOf Schema.agrees_text) unhelpful, score, by simp⟩
  rw [reads_object_iff, fits, Member.fits_orNamed_iff distinct (by decide),
    Json.forall_reads_optional_iff Decoder.reads_signed_iff,
    Json.forall_reads_optional_iff Decoder.reads_signed_iff]
  simp

end Reflection

namespace Run

theorem reads_object_iff (given : List (String × Json)) : decode.Reads (.object given) ↔
    (∀ m ∈ members, m.Fits given) ∧
      ∀ key ∈ ["run_id", "task_id", "condition_id", "succeeded", "compile_passed", "tests_passed",
        "duration_seconds"], (Json.member? key given).isSome = true := by
  refine Record.reads_object_iff (by decide) _ (by simp [members, Member.of]) ?_
  intro r sound
  have all : members = [_, _, _, _, _, _, _, _, _, _, _, _, _, _] := rfl
  simp [Record.exists_bind_eq_ok_iff, Record.exists_pure_eq_ok, Record.omissible,
    Record.exists_required_iff sound, Record.exists_orDefault sound, all, -bind_pure_comp,
    -Bool.exists_bool]

/-- What the schema of runs leaves open: integers stay in their formats, and a reflection gives its
score under one of its names only. -/
structure Carried (j : Json) : Prop where
  replicate : j.MayBeIntegerIn (-9223372036854775808) 9223372036854775807 "replicate"
  tokens : ∀ usage ∈ j.get? "token_usage",
    ∀ key ∈ ["input_tokens", "output_tokens", "total_tokens"],
      usage.MayBeIntegerIn 0 18446744073709551615 key
  oneScore : ∀ reflection ∈ j.get? "post_run_reflection",
    ¬((reflection.get? "roslyn_helpfulness_score").isSome ∧
      (reflection.get? "helpfulness_score").isSome)
  score : ∀ reflection ∈ j.get? "post_run_reflection",
    ∀ key ∈ ["roslyn_helpfulness_score", "helpfulness_score"],
      reflection.MayBeIntegerIn (-9223372036854775808) 9223372036854775807 key

/-- A run that keeps to its schema is read exactly when nothing is wrong that the schema leaves
open. -/
theorem reads_iff_of_accepts {j : Json} (good : j.WellFormed) (accepted : Schema.run.Accepts j) :
    decode.Reads j ↔ Carried j := by
  obtain ⟨given, rfl, needed, each⟩ := Schema.exists_of_accepts_record accepted
  obtain ⟨distinct, values⟩ := Json.wellFormed_object_iff.mp good
  simp only [List.forall_mem_cons] at each
  obtain ⟨runId, taskId, conditionId, -, agent, model, succeeded, compiled, tested, duration,
    offered, calls, usage, reflection, -⟩ := each
  have fits : (∀ m ∈ members, m.Fits given) ↔
      (Member.of "replicate" (Decoder.optional Decoder.signed)).Fits given ∧
        (Member.of "token_usage" (Decoder.optional TokenUsage.decode)).Fits given ∧
          (Member.of "post_run_reflection" (Decoder.optional Reflection.decode)).Fits given := by
    simp only [members, List.forall_mem_cons]
    constructor
    · rintro ⟨-, -, -, replicate, -, -, -, -, -, -, -, -, usage, reflection, -⟩
      exact ⟨replicate, usage, reflection⟩
    · rintro ⟨replicate, usage, reflection⟩
      exact ⟨.of_agrees good Schema.agrees_text runId, .of_agrees good Schema.agrees_text taskId,
        .of_agrees good Schema.agrees_text conditionId, replicate,
        .of_agrees good Schema.agrees_text agent, .of_agrees good Schema.agrees_text model,
        .of_agrees good Schema.agrees_boolean succeeded,
        .of_agrees good Schema.agrees_boolean compiled,
        .of_agrees good Schema.agrees_boolean tested, .of_agrees good Schema.agrees_float duration,
        .of_agrees good (Schema.agrees_listOf Schema.agrees_text) offered,
        .of_agrees good (Schema.agrees_listOf ToolCall.agrees) calls, usage, reflection, by simp⟩
  have counted : (Member.of "token_usage" (Decoder.optional TokenUsage.decode)).Fits given ↔
      ∀ used ∈ Json.member? "token_usage" given,
        ∀ key ∈ ["input_tokens", "output_tokens", "total_tokens"],
          used.MayBeIntegerIn 0 18446744073709551615 key := by
    rw [Member.fits_of_iff distinct]
    refine forall₂_congr fun used found => ?_
    rw [Decoder.reads_optional_object_iff (usage used found)]
    cases values _ (Json.mem_of_member? found) with
    | object apart _ => simp [TokenUsage.reads_object_iff_counts apart]
    | _ => simp [Json.MayBeIntegerIn, Json.get?]
  have reflected : (Member.of "post_run_reflection"
        (Decoder.optional Reflection.decode)).Fits given ↔
      ∀ said ∈ Json.member? "post_run_reflection" given,
        ¬((said.get? "roslyn_helpfulness_score").isSome ∧
            (said.get? "helpfulness_score").isSome) ∧
          ∀ key ∈ ["roslyn_helpfulness_score", "helpfulness_score"],
            said.MayBeIntegerIn (-9223372036854775808) 9223372036854775807 key := by
    rw [Member.fits_of_iff distinct]
    refine forall₂_congr fun said found => ?_
    have accepted := reflection said found
    rw [Decoder.reads_optional_object_iff accepted]
    have whole := values _ (Json.mem_of_member? found)
    cases said with
    | object inside =>
      rw [Schema.accepts_ofKind_iff, Schema.accepts_withMembers_iff] at accepted
      simp only [List.forall_mem_cons] at accepted
      obtain ⟨-, summary, helpful, unhelpful, -⟩ := accepted
      refine Iff.trans ?_ (Reflection.reads_object_iff_score whole summary helpful unhelpful)
      simp
    | _ => simp [Json.MayBeIntegerIn, Json.get?]
  rw [reads_object_iff, fits, counted, reflected, Member.fits_of_iff distinct,
    Json.forall_reads_optional_iff Decoder.reads_signed_iff]
  constructor
  · rintro ⟨⟨replicate, tokens, reflections⟩, -⟩
    exact ⟨replicate, tokens, fun said found => (reflections said found).1,
      fun said found => (reflections said found).2⟩
  · rintro ⟨replicate, tokens, oneScore, score⟩
    exact ⟨⟨replicate, tokens, fun said found => ⟨oneScore said found, score said found⟩⟩, needed⟩

end Run

/-- Schemas and decoders agree but for the format of integers and a score given twice. -/
theorem decoders_read_iff_of_accepts {j : Json} (good : j.WellFormed) :
    (Schema.manifest.Accepts j → (Manifest.decode.Reads j ↔
      ∃ n, j.get? "runs_per_cell" = some (.integer n) ∧ 0 ≤ n ∧ n ≤ 4294967295)) ∧
    (Schema.run.Accepts j → (Run.decode.Reads j ↔ Run.Carried j)) :=
  ⟨Manifest.reads_iff_of_accepts good, Run.reads_iff_of_accepts good⟩

def Manifest.overfull : Json :=
  .object [("experiment_id", .text "e"), ("conditions", .array []), ("tasks", .array []),
    ("runs_per_cell", .integer 4294967296)]

def Run.withOlderScore : Json :=
  .object [("run_id", .text "r"), ("task_id", .text "t"), ("condition_id", .text "c"),
    ("succeeded", .bool true), ("compile_passed", .bool true), ("tests_passed", .bool true),
    ("duration_seconds", .integer 1),
    ("post_run_reflection", .object [("helpfulness_score", .integer 4)])]

theorem Manifest.wellFormed_overfull : Manifest.overfull.WellFormed := by
  refine .object (by decide) ?_
  simp only [List.forall_mem_cons]
  exact ⟨.text _, .array (by simp), .array (by simp), .integer (by decide) (by decide), by simp⟩

theorem Run.wellFormed_withOlderScore : Run.withOlderScore.WellFormed := by
  have score : Json.WellFormed (.object [("helpfulness_score", .integer 4)]) := by
    refine .object (by decide) ?_
    simp only [List.forall_mem_cons]
    exact ⟨.integer (by decide) (by decide), by simp⟩
  refine .object (by decide) ?_
  simp only [List.forall_mem_cons]
  exact ⟨.text _, .text _, .text _, .bool _, .bool _, .bool _,
    .integer (by decide) (by decide), score, by simp⟩

theorem not_reads_overfull_reads_withOlderScore :
    (Schema.manifest.Accepts Manifest.overfull ∧ ¬ Manifest.decode.Reads Manifest.overfull) ∧
      Schema.run.Accepts Run.withOlderScore ∧ Run.decode.Reads Run.withOlderScore := by
  have overfull : Schema.manifest.Accepts Manifest.overfull := by decide
  have older : Schema.run.Accepts Run.withOlderScore := by decide
  refine ⟨⟨overfull, ?_⟩, older, ?_⟩
  · rw [(decoders_read_iff_of_accepts Manifest.wellFormed_overfull).1 overfull]
    rintro ⟨n, found, -, small⟩
    have number : 4294967296 = n := by
      simpa [Manifest.overfull, Json.get?, Json.member?] using found
    omega
  · rw [(decoders_read_iff_of_accepts Run.wellFormed_withOlderScore).2 older]
    constructor <;> simp [Run.withOlderScore, Json.get?, Json.member?, Json.MayBeIntegerIn,
      Json.IsIntegerIn]

end ToolTrial
