import ToolTrial.Experiment.Codec
import ToolTrial.Proofs.Document
import ToolTrial.Proofs.Loading
import ToolTrial.Proofs.Reading

/-!
The document of a manifest.  It keeps to the schema of manifests, stands for that manifest and is
read back from its text, provided that the number of runs of a cell is such as a document can carry.
-/

set_option autoImplicit false
set_option relaxedAutoImplicit false

namespace ToolTrial

open Json (Decoder Member Readable Record)
open Json.Decoder
open Schema

theorem Path.decode_toJson (p : Path) : decode p.toJson = .ok p := rfl

theorem Json.Member.check_of_eq_ok {α : Type} {name : String} {decode : Decoder α}
    {j : Json} {a : α} (decoded : decode j = .ok a) : (Member.of name decode).check j = .ok () :=
  (Member.check_of_eq_ok_iff name decode j).mpr ⟨a, decoded⟩

namespace Condition

private def given (c : Condition) : List (String × Json) :=
  [("id", .text c.id), ("name", .text c.name), ("tools_enabled", .bool c.toolsEnabled)] ++
    Json.optionalMember "notes" .text c.notes

private theorem distinct_given (c : Condition) : ((given c).map Prod.fst).Nodup := by
  unfold given
  cases c.notes <;> simp [Json.optionalMember]

theorem decode_toJson (c : Condition) : decode c.toJson = .ok c := by
  have value (s : String) : Json.text s ≠ .null := by simp
  obtain ⟨r, read, values⟩ : ∃ r, Record.read "Condition" members c.toJson = .ok r ∧
      r.values = given c := by
    apply Record.read_object
    · simp only [List.forall_mem_append, List.forall_mem_cons, Json.forall_mem_optionalMember]
      refine ⟨⟨⟨_, rfl, rfl, rfl⟩, ⟨_, rfl, rfl, rfl⟩, ⟨_, rfl, rfl, rfl⟩, by simp⟩, fun s _ => ?_⟩
      exact ⟨_, rfl, rfl, rfl⟩
    · exact distinct_given c
  simp only [decode, bind_eq_ok_iff, pure_eq_ok_iff]
  refine ⟨r, read, c.id, ?_, c.name, ?_, c.toolsEnabled, ?_, c.notes, ?_, rfl⟩
  · exact Record.required_eq_ok (values ▸ rfl) (text_text _)
  · exact Record.orDefault_eq_ok _ (values ▸ rfl) (text_text _)
  · exact Record.required_eq_ok (values ▸ rfl) (boolean_bool _)
  · refine Record.omissible_eq_ok ?_ value fun s _ => text_text s
    simp [values, given, Json.member?, Json.member?_optionalMember]

theorem accepts_toJson (c : Condition) : Schema.condition.Accepts c.toJson := by
  have noted : Json.member? "notes" (given c) = c.notes.map .text := by
    simp [given, Json.member?, Json.member?_optionalMember]
  rw [toJson, Schema.condition, accepts_record_iff]
  simp only [List.forall_mem_cons]
  refine ⟨⟨rfl, rfl, by simp⟩, accepts_of_member? rfl (accepts_just_string _),
    accepts_of_member? rfl (accepts_just_string _), accepts_of_member? rfl (accepts_just_boolean _),
    ?_, by simp⟩
  intro j found
  obtain ⟨s, -, rfl⟩ := Option.map_eq_some_iff.mp (noted.symm.trans found)
  rfl

private theorem readable_toJson {P : Float → Prop} {depth : Nat} (c : Condition) :
    Readable P (depth + 1) c.toJson := by
  apply Readable.object (distinct_given c)
  simp only [given, List.forall_mem_append, List.forall_mem_cons, Json.forall_mem_optionalMember]
  exact ⟨⟨.text _, .text _, .bool _, by simp⟩, fun s _ => .text s⟩

end Condition

namespace Task

private def given (t : Task) : List (String × Json) :=
  [("id", .text t.id), ("title", .text t.title), ("repo", .text t.repo), ("commit", .text t.commit),
    ("acceptance_checks", Json.ofTexts t.acceptanceChecks)] ++
  (Json.optionalMember "prompt_file" Path.toJson t.promptFile ++
    Json.optionalMember "repo_url" .text t.repoUrl)

private theorem distinct_given (t : Task) : ((given t).map Prod.fst).Nodup := by
  unfold given
  cases t.promptFile <;> cases t.repoUrl <;> simp [Json.optionalMember]

private theorem toJson_eq (t : Task) : t.toJson = .object (given t) := by
  rw [toJson, given, List.append_assoc]

theorem decode_toJson (t : Task) : decode t.toJson = .ok t := by
  have text_ (s : String) : Json.text s ≠ .null := by simp
  have path (p : Path) : p.toJson ≠ .null := by simp [Path.toJson]
  obtain ⟨r, read, values⟩ : ∃ r, Record.read "Task" members t.toJson = .ok r ∧
      r.values = given t := by
    rw [toJson_eq]
    apply Record.read_object
    · simp only [given, List.forall_mem_append, List.forall_mem_cons,
      Json.forall_mem_optionalMember]
      refine ⟨⟨⟨_, rfl, rfl, rfl⟩, ⟨_, rfl, rfl, rfl⟩, ⟨_, rfl, rfl, rfl⟩, ⟨_, rfl, rfl, rfl⟩,
        ⟨_, rfl, rfl, ?_⟩, by simp⟩, fun p _ => ⟨_, rfl, rfl, rfl⟩, fun s _ => ⟨_, rfl, rfl, rfl⟩⟩
      exact Member.check_of_eq_ok (list_ofTexts _)
    · exact distinct_given t
  simp only [decode, bind_eq_ok_iff, pure_eq_ok_iff]
  refine ⟨r, read, t.id, ?_, t.title, ?_, t.repo, ?_, t.commit, ?_, t.acceptanceChecks, ?_,
    t.promptFile, ?_, t.repoUrl, ?_, rfl⟩
  · exact Record.required_eq_ok (values ▸ rfl) (text_text _)
  · exact Record.orDefault_eq_ok _ (values ▸ rfl) (text_text _)
  · exact Record.required_eq_ok (values ▸ rfl) (text_text _)
  · exact Record.required_eq_ok (values ▸ rfl) (text_text _)
  · exact Record.orDefault_eq_ok _ (values ▸ rfl) (list_ofTexts _)
  · refine Record.omissible_eq_ok ?_ path fun p _ => Path.decode_toJson p
    simp [values, given, Json.member?, Json.member?_append, Json.member?_optionalMember]
  · refine Record.omissible_eq_ok ?_ text_ fun s _ => text_text s
    simp [values, given, Json.member?, Json.member?_append, Json.member?_optionalMember]

theorem accepts_toJson (t : Task) : Schema.task.Accepts t.toJson := by
  have prompted : Json.member? "prompt_file" (given t) = t.promptFile.map Path.toJson := by
    simp [given, Json.member?, Json.member?_append, Json.member?_optionalMember]
  have addressed : Json.member? "repo_url" (given t) = t.repoUrl.map .text := by
    simp [given, Json.member?, Json.member?_append, Json.member?_optionalMember]
  rw [toJson_eq, Schema.task, accepts_record_iff]
  simp only [List.forall_mem_cons]
  refine ⟨⟨rfl, rfl, rfl, by simp⟩, accepts_of_member? rfl (accepts_just_string _),
    accepts_of_member? rfl (accepts_just_string _), accepts_of_member? rfl (accepts_just_string _),
    accepts_of_member? rfl (accepts_just_string _), accepts_of_member? rfl (accepts_texts _),
    ?_, ?_, by simp⟩
  · intro j found
    obtain ⟨p, -, rfl⟩ := Option.map_eq_some_iff.mp (prompted.symm.trans found)
    rfl
  · intro j found
    obtain ⟨s, -, rfl⟩ := Option.map_eq_some_iff.mp (addressed.symm.trans found)
    rfl

private theorem readable_toJson {P : Float → Prop} {depth : Nat} (t : Task) :
    Readable P (depth + 2) t.toJson := by
  rw [toJson_eq]
  apply Readable.object (distinct_given t)
  simp only [given, List.forall_mem_append, List.forall_mem_cons, Json.forall_mem_optionalMember]
  exact ⟨⟨.text _, .text _, .text _, .text _, Json.readable_ofTexts _, by simp⟩,
    fun p _ => .text p.text, fun s _ => .text s⟩

end Task

namespace Manifest

theorem decode_toJson {m : Manifest} (small : m.runsPerCell < UInt32.size) :
    decode m.toJson = .ok m := by
  have conditions : list Condition.decode (.array (m.conditions.map Condition.toJson)) =
      .ok m.conditions := list_map fun c _ => Condition.decode_toJson c
  have tasks : list Task.decode (.array (m.tasks.map Task.toJson)) = .ok m.tasks :=
    list_map fun t _ => Task.decode_toJson t
  have runs : smallCount (Json.ofNat m.runsPerCell) = .ok m.runsPerCell := natural_ofNat "u32" small
  obtain ⟨r, read, values⟩ : ∃ r, Record.read "ExperimentManifest" members m.toJson = .ok r ∧
      r.values = [("experiment_id", .text m.experimentId), ("description", .text m.description),
        ("tool_prefixes", Json.ofTexts m.toolNameStarts),
        ("conditions", .array (m.conditions.map Condition.toJson)),
        ("tasks", .array (m.tasks.map Task.toJson)),
        ("runs_per_cell", Json.ofNat m.runsPerCell)] := by
    apply Record.read_object
    · simp only [List.forall_mem_cons]
      exact ⟨⟨_, rfl, rfl, rfl⟩, ⟨_, rfl, rfl, rfl⟩,
        ⟨_, rfl, rfl, Member.check_of_eq_ok (list_ofTexts _)⟩,
        ⟨_, rfl, rfl, Member.check_of_eq_ok conditions⟩, ⟨_, rfl, rfl, Member.check_of_eq_ok tasks⟩,
        ⟨_, rfl, rfl, Member.check_of_eq_ok runs⟩, by simp⟩
    · simp
  simp only [decode, bind_eq_ok_iff, pure_eq_ok_iff]
  refine ⟨r, read, m.experimentId, ?_, m.description, ?_, m.toolNameStarts, ?_, m.conditions, ?_,
    m.tasks, ?_, m.runsPerCell, ?_, rfl⟩
  · exact Record.required_eq_ok (values ▸ rfl) (text_text _)
  · exact Record.orDefault_eq_ok _ (values ▸ rfl) (text_text _)
  · exact Record.orDefault_eq_ok _ (values ▸ rfl) (list_ofTexts _)
  · exact Record.required_eq_ok (values ▸ rfl) conditions
  · exact Record.required_eq_ok (values ▸ rfl) tasks
  · exact Record.required_eq_ok (values ▸ rfl) runs

theorem accepts_toJson (m : Manifest) : Schema.manifest.Accepts m.toJson := by
  have conditions := accepts_listOf_map fun c (_ : c ∈ m.conditions) => Condition.accepts_toJson c
  have tasks := accepts_listOf_map fun t (_ : t ∈ m.tasks) => Task.accepts_toJson t
  rw [toJson, Schema.manifest, accepts_record_iff]
  simp only [List.forall_mem_cons]
  exact ⟨⟨rfl, rfl, rfl, rfl, by simp⟩, accepts_of_member? rfl (accepts_just_string _),
    accepts_of_member? rfl (accepts_just_string _), accepts_of_member? rfl (accepts_texts _),
    accepts_of_member? rfl conditions, accepts_of_member? rfl tasks, accepts_of_member? rfl rfl,
    by simp⟩

theorem readable_toJson {P : Float → Prop} {depth : Nat} {m : Manifest}
    (small : m.runsPerCell < UInt32.size) : Readable P (depth + 4) m.toJson := by
  have conditions : Readable P (depth + 3) (.array (m.conditions.map Condition.toJson)) := by
    apply Readable.array
    intro j member
    obtain ⟨c, -, rfl⟩ := List.mem_map.mp member
    exact Condition.readable_toJson c
  have tasks : Readable P (depth + 3) (.array (m.tasks.map Task.toJson)) := by
    apply Readable.array
    intro j member
    obtain ⟨t, -, rfl⟩ := List.mem_map.mp member
    exact Task.readable_toJson t
  have runs : Readable P (depth + 3) (Json.ofNat m.runsPerCell) :=
    Json.readable_ofNat (small.trans (by decide))
  apply Readable.object (by simp)
  simp only [List.forall_mem_cons]
  exact ⟨.text _, .text _, Json.readable_ofTexts _, conditions, tasks, runs, by simp⟩

end Manifest

theorem LoadedManifest.ofDocument_toJson (path : Path) {m : Manifest} (loadable : m.Loadable)
    (small : m.runsPerCell < UInt32.size) :
    LoadedManifest.ofDocument path m.toJson = .ok ⟨m, path, m.toJson.sha256⟩ := by
  rw [LoadedManifest.ofDocument_eq_ok_iff]
  exact ⟨Manifest.accepts_toJson m, Manifest.decode_toJson small, loadable, rfl, rfl⟩

end ToolTrial
