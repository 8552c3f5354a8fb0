import ToolTrial.Experiment.Codec
import ToolTrial.Proofs.Codec
import ToolTrial.Proofs.Document

/-!
The document of a run.  It keeps to the schema of runs and stands for that run, provided that the
numbers of the run are such as a document can carry.
-/

set_option autoImplicit false
set_option relaxedAutoImplicit false

namespace ToolTrial

open Json (Decoder Record Readable)
open Json.Decoder

theorem ToolCall.decode_toJson (c : ToolCall) : decode c.toJson = .ok c := by
  obtain ⟨r, read, values⟩ : ∃ r, Record.read "ToolCall" members c.toJson = .ok r ∧
      r.values = [("tool_name", .text c.toolName), ("ok", .bool c.ok)] := by
    apply Record.read_object
    · rw [List.forall_mem_cons, List.forall_mem_singleton]
      exact ⟨⟨_, rfl, rfl, rfl⟩, ⟨_, rfl, rfl, rfl⟩⟩
    · simp
  simp only [decode, bind_eq_ok_iff, pure_eq_ok_iff]
  refine ⟨r, read, c.toolName, ?_, c.ok, ?_, rfl⟩
  · exact Record.required_eq_ok (values ▸ rfl) (text_text _)
  · exact Record.required_eq_ok (values ▸ rfl) (boolean_bool _)

namespace TokenUsage

structure Encodable (u : TokenUsage) : Prop where
  input : ∀ n ∈ u.input, n < bound
  output : ∀ n ∈ u.output, n < bound
  total : ∀ n ∈ u.total, n < bound

theorem decode_toJson {u : TokenUsage} (h : u.Encodable) : decode u.toJson = .ok u := by
  have value (n : Nat) : Json.ofNat n ≠ .null := by simp [Json.ofNat]
  have count {n : Nat} (small : n < bound) : largeCount (Json.ofNat n) = .ok n :=
    natural_ofNat "u64" small
  have good {n : Nat} (small : n < bound) :
      (optional largeCount (Json.ofNat n)).map (fun _ => ()) = .ok () := by
    rw [optional_of_ne_null (value n) (count small)]
    rfl
  obtain ⟨r, read, values⟩ : ∃ r, Record.read "TokenUsage" members u.toJson = .ok r ∧
      r.values = Json.optionalMember "input_tokens" Json.ofNat u.input ++
        Json.optionalMember "output_tokens" Json.ofNat u.output ++
        Json.optionalMember "total_tokens" Json.ofNat u.total := by
    apply Record.read_object
    · simp only [List.forall_mem_append, Json.forall_mem_optionalMember]
      refine ⟨⟨fun n given => ?_, fun n given => ?_⟩, fun n given => ?_⟩
      · exact ⟨_, rfl, rfl, good (h.input n given)⟩
      · exact ⟨_, rfl, rfl, good (h.output n given)⟩
      · exact ⟨_, rfl, rfl, good (h.total n given)⟩
    · cases u.input <;> cases u.output <;> cases u.total <;> simp [Json.optionalMember]
  simp only [decode, bind_eq_ok_iff, pure_eq_ok_iff]
  refine ⟨r, read, u.input, ?_, u.output, ?_, u.total, ?_, rfl⟩
  · refine Record.omissible_eq_ok ?_ value fun n given => count (h.input n given)
    simp [values, Json.member?_append, Json.member?_optionalMember]
  · refine Record.omissible_eq_ok ?_ value fun n given => count (h.output n given)
    simp [values, Json.member?_append, Json.member?_optionalMember]
  · refine Record.omissible_eq_ok ?_ value fun n given => count (h.total n given)
    simp [values, Json.member?_append, Json.member?_optionalMember]

end TokenUsage

def IsSigned (n : Int) : Prop := -9223372036854775808 ≤ n ∧ n ≤ 9223372036854775807

theorem signed_integer {n : Int} (h : IsSigned n) : signed (.integer n) = .ok n :=
  integerIn_integer "i64" h.1 h.2

private theorem optional_signed_ofOption {o : Option Int} (h : ∀ n ∈ o, IsSigned n) :
    (optional signed (Json.ofOption .integer o)).map (fun _ => ()) = .ok () := by
  rw [optional_ofOption (by simp) fun n given => signed_integer (h n given)]
  rfl

namespace Reflection

theorem decode_toJson {f : Reflection} (h : ∀ n ∈ f.helpfulness, IsSigned n) :
    decode f.toJson = .ok f := by
  obtain ⟨r, read, values⟩ : ∃ r, Record.read "PostRunReflection" members f.toJson = .ok r ∧
      r.values = [("summary", .text f.summary), ("helpful_tools", Json.ofTexts f.helpfulTools),
        ("unhelpful_tools", Json.ofTexts f.unhelpfulTools),
        ("roslyn_helpfulness_score", Json.ofOption .integer f.helpfulness)] := by
    have good (texts : List String) :
        (list text (Json.ofTexts texts)).map (fun _ => ()) = .ok () := by
      rw [list_ofTexts]
      rfl
    apply Record.read_object
    · simp only [List.forall_mem_cons]
      exact ⟨⟨_, rfl, rfl, rfl⟩, ⟨_, rfl, rfl, good _⟩, ⟨_, rfl, rfl, good _⟩,
        ⟨_, rfl, rfl, optional_signed_ofOption h⟩, by simp⟩
    · simp
  simp only [decode, bind_eq_ok_iff, pure_eq_ok_iff]
  refine ⟨r, read, f.summary, ?_, f.helpfulTools, ?_, f.unhelpfulTools, ?_, f.helpfulness, ?_, rfl⟩
  · exact Record.orDefault_eq_ok _ (values ▸ rfl) (text_text _)
  · exact Record.orDefault_eq_ok _ (values ▸ rfl) (list_ofTexts _)
  · exact Record.orDefault_eq_ok _ (values ▸ rfl) (list_ofTexts _)
  · exact Record.omissible_ofOption_eq_ok (values ▸ rfl) (by simp)
      fun n given => signed_integer (h n given)

end Reflection

namespace Run

structure Encodable (r : Run) : Prop where
  finite : r.durationSeconds.isFinite = true
  replicate : ∀ n ∈ r.replicate, IsSigned n
  helpfulness : ∀ n ∈ r.helpfulness, IsSigned n
  tokens : ∀ u ∈ r.tokenUsage, u.Encodable

variable {r : Run}

private theorem reflection_decode (h : r.Encodable) {f : Reflection} (given : f ∈ r.reflection) :
    Reflection.decode f.toJson = .ok f := by
  apply Reflection.decode_toJson
  intro n score
  have reflected : r.reflection = some f := given
  exact h.helpfulness n (by rw [helpfulness, reflected]; exact score)

private theorem toolCalls_decode (calls : List ToolCall) :
    list ToolCall.decode (.array (calls.map ToolCall.toJson)) = .ok calls :=
  list_map fun c _ => ToolCall.decode_toJson c

/-- The members of the document of a run, in the order in which it writes them. -/
private def given (r : Run) : List (String × Json) :=
  [("run_id", .text r.runId), ("task_id", .text r.taskId), ("condition_id", .text r.conditionId),
    ("replicate", Json.ofOption .integer r.replicate), ("agent", .text r.agent),
    ("model", .text r.model), ("succeeded", .bool r.succeeded),
    ("compile_passed", .bool r.compilePassed), ("tests_passed", .bool r.testsPassed),
    ("duration_seconds", Json.ofFloat r.durationSeconds),
    ("tools_offered", Json.ofTexts r.toolsOffered),
    ("tool_calls", .array (r.toolCalls.map ToolCall.toJson))] ++
  (Json.optionalMember "token_usage" TokenUsage.toJson r.tokenUsage ++
    Json.optionalMember "post_run_reflection" Reflection.toJson r.reflection)

private theorem toJson_eq (r : Run) : r.toJson = .object (given r) := by
  rw [toJson, given, List.append_assoc]

private theorem distinct_given (r : Run) : ((given r).map Prod.fst).Nodup := by
  unfold given
  cases r.tokenUsage <;> cases r.reflection <;> simp [Json.optionalMember]

private theorem taken_given (h : r.Encodable) :
    ∀ e ∈ given r, Record.Takes members e.1 e.2 := by
  have texts : (list text (Json.ofTexts r.toolsOffered)).map (fun _ => ()) = .ok () := by
    rw [list_ofTexts]
    rfl
  have duration : (float (Json.ofFloat r.durationSeconds)).map (fun _ => ()) = .ok () := by
    rw [float_ofFloat h.finite]
    rfl
  have calls : (list ToolCall.decode (.array (r.toolCalls.map ToolCall.toJson))).map
      (fun _ => ()) = .ok () := by
    rw [toolCalls_decode]
    rfl
  simp only [given, List.forall_mem_append, List.forall_mem_cons, Json.forall_mem_optionalMember]
  refine ⟨⟨⟨_, rfl, rfl, rfl⟩, ⟨_, rfl, rfl, rfl⟩, ⟨_, rfl, rfl, rfl⟩,
    ⟨_, rfl, rfl, optional_signed_ofOption h.replicate⟩, ⟨_, rfl, rfl, rfl⟩, ⟨_, rfl, rfl, rfl⟩,
    ⟨_, rfl, rfl, rfl⟩, ⟨_, rfl, rfl, rfl⟩, ⟨_, rfl, rfl, rfl⟩, ⟨_, rfl, rfl, duration⟩,
    ⟨_, rfl, rfl, texts⟩, ⟨_, rfl, rfl, calls⟩, by simp⟩, fun u used => ⟨_, rfl, rfl, ?_⟩,
    fun f reflected => ⟨_, rfl, rfl, ?_⟩⟩
  · show (optional TokenUsage.decode u.toJson).map (fun _ => ()) = .ok ()
    rw [optional_of_ne_null (by simp [TokenUsage.toJson])
      (TokenUsage.decode_toJson (h.tokens u used))]
    rfl
  · show (optional Reflection.decode f.toJson).map (fun _ => ()) = .ok ()
    rw [optional_of_ne_null (by simp [Reflection.toJson]) (reflection_decode h reflected)]
    rfl

theorem decode_toJson (h : r.Encodable) : decode r.toJson = .ok r := by
  obtain ⟨record, read, values⟩ : ∃ record, Record.read "RunRecord" members r.toJson = .ok record ∧
      record.values = given r := by
    rw [toJson_eq]
    exact Record.read_object _ (taken_given h) (distinct_given r)
  simp only [decode, bind_eq_ok_iff, pure_eq_ok_iff]
  refine ⟨record, read, r.runId, ?_, r.taskId, ?_, r.conditionId, ?_, r.replicate, ?_, r.agent, ?_,
    r.model, ?_, r.succeeded, ?_, r.compilePassed, ?_, r.testsPassed, ?_, r.durationSeconds, ?_,
    r.toolsOffered, ?_, r.toolCalls, ?_, r.tokenUsage, ?_, r.reflection, ?_, rfl⟩
  · exact Record.required_eq_ok (values ▸ rfl) (text_text _)
  · exact Record.required_eq_ok (values ▸ rfl) (text_text _)
  · exact Record.required_eq_ok (values ▸ rfl) (text_text _)
  · exact Record.omissible_ofOption_eq_ok (values ▸ rfl) (by simp)
      fun n number => signed_integer (h.replicate n number)
  · exact Record.orDefault_eq_ok _ (values ▸ rfl) (text_text _)
  · exact Record.orDefault_eq_ok _ (values ▸ rfl) (text_text _)
  · exact Record.required_eq_ok (values ▸ rfl) (boolean_bool _)
  · exact Record.required_eq_ok (values ▸ rfl) (boolean_bool _)
  · exact Record.required_eq_ok (values ▸ rfl) (boolean_bool _)
  · exact Record.required_eq_ok (values ▸ rfl) (float_ofFloat h.finite)
  · exact Record.orDefault_eq_ok _ (values ▸ rfl) (list_ofTexts _)
  · exact Record.orDefault_eq_ok _ (values ▸ rfl) (toolCalls_decode _)
  · have value (u : TokenUsage) : u.toJson ≠ .null := by simp [TokenUsage.toJson]
    refine Record.omissible_eq_ok ?_ value fun u used => TokenUsage.decode_toJson (h.tokens u used)
    simp [values, given, Json.member?, Json.member?_append, Json.member?_optionalMember]
  · have value (f : Reflection) : f.toJson ≠ .null := by simp [Reflection.toJson]
    refine Record.omissible_eq_ok ?_ value fun f reflected => reflection_decode h reflected
    simp [values, given, Json.member?, Json.member?_append, Json.member?_optionalMember]

open Schema

private theorem accepts_orNull_integer (o : Option Int) :
    (orNull .integer).Accepts (Json.ofOption .integer o) := by
  cases o <;> rfl

private theorem accepts_just_number {x : Float} (finite : x.isFinite = true) :
    (just .number).Accepts (Json.ofFloat x) := by
  rw [Json.ofFloat, if_pos finite]
  rfl

private theorem accepts_toolCall (c : ToolCall) :
    (record ["tool_name", "ok"] [("tool_name", just .string), ("ok", just .boolean)]).Accepts
      c.toJson := by
  rw [ToolCall.toJson, accepts_record_iff]
  simp only [List.forall_mem_cons]
  exact ⟨⟨rfl, rfl, by simp⟩, accepts_of_member? rfl (accepts_just_string _),
    accepts_of_member? rfl (accepts_just_boolean _), by simp⟩

private theorem accepts_tokenCount (n : Nat) : tokenCount.Accepts (Json.ofNat n) := by
  rw [tokenCount, accepts_ofKind_iff, accepts_atLeast_iff]
  exact ⟨rfl, by simp [Json.ofNat, isBelow], rfl⟩

private theorem accepts_tokenUsage (u : TokenUsage) :
    (Schema.ofKind [.null, .object] (withMembers [("input_tokens", tokenCount),
      ("output_tokens", tokenCount), ("total_tokens", tokenCount)])).Accepts u.toJson := by
  rw [accepts_ofKind_iff, accepts_withMembers_iff]
  refine ⟨rfl, ?_⟩
  simp only [List.forall_mem_cons, TokenUsage.toJson, Json.get?, Json.member?_append,
    Json.member?_optionalMember]
  refine ⟨?_, ?_, ?_, by simp⟩
  · simpa using fun n (_ : u.input = some n) => accepts_tokenCount n
  · simpa using fun n (_ : u.output = some n) => accepts_tokenCount n
  · simpa using fun n (_ : u.total = some n) => accepts_tokenCount n

private theorem accepts_reflection (f : Reflection) :
    (Schema.ofKind [.null, .object] (withMembers [("summary", just .string),
      ("helpful_tools", listOf (just .string)), ("unhelpful_tools", listOf (just .string)),
      ("roslyn_helpfulness_score", orNull .integer),
      ("helpfulness_score", orNull .integer)])).Accepts f.toJson := by
  rw [accepts_ofKind_iff, accepts_withMembers_iff]
  refine ⟨rfl, ?_⟩
  simp only [List.forall_mem_cons, Reflection.toJson, Json.get?]
  exact ⟨accepts_of_member? rfl (accepts_just_string _), accepts_of_member? rfl (accepts_texts _),
    accepts_of_member? rfl (accepts_texts _), accepts_of_member? rfl (accepts_orNull_integer _),
    by simp [Json.member?], by simp⟩

theorem accepts_toJson (r : Run) (finite : r.durationSeconds.isFinite = true) :
    Schema.run.Accepts r.toJson := by
  have calls := accepts_listOf_map fun c (_ : c ∈ r.toolCalls) => accepts_toolCall c
  have used : Json.member? "token_usage" (given r) = r.tokenUsage.map TokenUsage.toJson := by
    simp [given, Json.member?, Json.member?_append, Json.member?_optionalMember]
  have reflected : Json.member? "post_run_reflection" (given r) =
      r.reflection.map Reflection.toJson := by
    simp [given, Json.member?, Json.member?_append, Json.member?_optionalMember]
  rw [toJson_eq, Schema.run, accepts_record_iff]
  simp only [List.forall_mem_cons]
  refine ⟨⟨rfl, rfl, rfl, rfl, rfl, rfl, rfl, by simp⟩,
    accepts_of_member? rfl (accepts_just_string _), accepts_of_member? rfl (accepts_just_string _),
    accepts_of_member? rfl (accepts_just_string _),
    accepts_of_member? rfl (accepts_orNull_integer _),
    accepts_of_member? rfl (accepts_just_string _), accepts_of_member? rfl (accepts_just_string _),
    accepts_of_member? rfl (accepts_just_boolean _),
    accepts_of_member? rfl (accepts_just_boolean _),
    accepts_of_member? rfl (accepts_just_boolean _),
    accepts_of_member? rfl (accepts_just_number finite),
    accepts_of_member? rfl (accepts_texts _), accepts_of_member? rfl calls, ?_, ?_, by simp⟩
  · rw [used]
    intro value found
    obtain ⟨u, -, rfl⟩ := Option.map_eq_some_iff.mp found
    exact accepts_tokenUsage u
  · rw [reflected]
    intro value found
    obtain ⟨f, -, rfl⟩ := Option.map_eq_some_iff.mp found
    exact accepts_reflection f

private theorem readable_signed {P : Float → Prop} {depth : Nat} {o : Option Int}
    (h : ∀ n ∈ o, IsSigned n) : Readable P depth (Json.ofOption .integer o) := by
  apply Json.readable_ofOption
  intro n number
  obtain ⟨least, greatest⟩ := h n number
  apply Readable.integer
  · simpa [Number.leastInteger] using least
  · show n ≤ 18446744073709551615
    omega

private theorem readable_toolCall {P : Float → Prop} {depth : Nat} (c : ToolCall) :
    Readable P (depth + 1) c.toJson := by
  refine .object (by simp) ?_
  simp only [List.forall_mem_cons]
  exact ⟨.text _, .bool _, by simp⟩

private theorem readable_tokenUsage {P : Float → Prop} {depth : Nat} {u : TokenUsage}
    (h : u.Encodable) : Readable P (depth + 1) u.toJson := by
  have count {n : Nat} (small : n < TokenUsage.bound) : Readable P depth (Json.ofNat n) :=
    Json.readable_ofNat small
  refine .object ?_ ?_
  · cases u.input <;> cases u.output <;> cases u.total <;> simp [Json.optionalMember]
  · simp only [List.forall_mem_append, Json.forall_mem_optionalMember]
    exact ⟨⟨fun n used => count (h.input n used), fun n used => count (h.output n used)⟩,
      fun n used => count (h.total n used)⟩

private theorem readable_reflection {P : Float → Prop} {depth : Nat} {f : Reflection}
    (h : ∀ n ∈ f.helpfulness, IsSigned n) : Readable P (depth + 2) f.toJson := by
  refine .object (by simp) ?_
  simp only [List.forall_mem_cons]
  exact ⟨.text _, Json.readable_ofTexts _, Json.readable_ofTexts _, readable_signed h, by simp⟩

/-- The duration is the only float in the document of a run. -/
theorem readable_toJson {P : Float → Prop} {depth : Nat} (h : r.Encodable)
    (holds : P r.durationSeconds) : Readable P (depth + 3) r.toJson := by
  have calls : Readable P (depth + 2) (.array (r.toolCalls.map ToolCall.toJson)) := by
    refine .array fun j member => ?_
    obtain ⟨c, -, rfl⟩ := List.mem_map.mp member
    exact readable_toolCall c
  have duration : Readable P (depth + 2) (Json.ofFloat r.durationSeconds) := by
    rw [Json.ofFloat, if_pos h.finite]
    exact .float holds
  rw [toJson_eq]
  refine .object (distinct_given r) ?_
  simp only [given, List.forall_mem_append, List.forall_mem_cons, Json.forall_mem_optionalMember]
  refine ⟨⟨.text _, .text _, .text _, readable_signed h.replicate, .text _, .text _, .bool _,
    .bool _, .bool _, duration, Json.readable_ofTexts _, calls, by simp⟩, fun u used => ?_,
    fun f reflected => ?_⟩
  · exact readable_tokenUsage (h.tokens u used)
  · apply readable_reflection
    intro n score
    have given : r.reflection = some f := reflected
    exact h.helpfulness n (by rw [helpfulness, given]; exact score)

end Run
end ToolTrial
