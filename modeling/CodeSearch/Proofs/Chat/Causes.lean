import CodeSearch.Proofs.Chat.Replies
/-!
# What the cause of a failed call tells

A call in prose fails in the model, or on a reply that does not read. The cause of the fault is to tell the two apart:
it is a bad value if a reply has arrived. `cause_of_call`: this is so of every reply that is not nested too deeply, and
of every fault of the model that is not a bad value itself. A model that fails by a bad value is taken for one that has
replied, and its judge tells that the reply is malformed; a reply that is nested too deeply is no fault of the chat, and
the judge tells that the model cannot be reached.
-/

namespace CodeSearch

theorem Fault.isDepth_of_isBadValue {fault : Fault} (h : fault.isBadValue = true) : fault.isDepth = false := by
  cases fault with
  | badJson e => simpa [isBadValue, isDepth] using h
  | _ => rfl

/-- The fault is one of the chat, and its cause is a bad value. -/
def Fault.HasBadCause (fault : Fault) : Prop :=
  ∃ step cause, fault = .chat step (some cause) ∧ cause.isBadValue = true

theorem Fault.hasBadCause_chat {step : ChatStep} {cause : Fault} :
    (Fault.chat step (some cause)).HasBadCause ↔ cause.isBadValue = true := by
  refine ⟨?_, fun bad => ⟨step, cause, rfl, bad⟩⟩
  rintro ⟨_, _, same, bad⟩
  injection same with _ same
  injection same with same
  exact same ▸ bad

theorem Fault.not_hasBadCause_of_isDepth {fault : Fault} (deep : fault.isDepth = true) : ¬ fault.HasBadCause := by
  rintro ⟨step, cause, rfl, _⟩
  cases deep

namespace Chat

open Rerank Record

theorem isShallow_of_ok {text : String} {record : Json.Fields} (found : extractObject text = .ok record) :
    IsShallow text := by
  intro fault (failed : extractObject text = .error fault)
  rw [found] at failed
  cases failed

section Call
variable {β : Type} {schema : Schema β} {model : Model} {sampling : Sampling} {prompt : Prompt}

/-- Of the object in a text, if there is one, the schema makes a value or issues. -/
def Schema.Reads (schema : Schema β) (text : String) : Prop :=
  ∀ record, extractObject text = .ok record → ∃ checked, schema.read (.obj record) = .ok checked

/-- A text that does not read is a bad value, unless it is nested too deeply. -/
theorem readReply_fails {text : String} (reads : schema.Reads text) {fault : Fault}
    (failed : readReply schema text = .error fault) :
    IsShallow text ∧ fault.isBadValue = true ∨ ¬ IsShallow text ∧ fault.isDepth = true := by
  rw [readReply] at failed
  cases found : extractObject text with
  | error other =>
    rw [found] at failed
    obtain rfl : other = fault := Except.error.inj failed
    have same {third : Fault} (h : extractObject text = .error third) : third = other :=
      (Except.error.inj (found.symm.trans h)).symm
    rcases extractObject_fails text other found with bad | deep
    · exact .inl ⟨fun third h => same h ▸ Fault.isDepth_of_isBadValue bad, bad⟩
    · exact .inr ⟨fun shallow => by simp [shallow other found] at deep, deep⟩
  | ok record =>
    obtain ⟨checked, read⟩ := reads record found
    rw [found, ok_bind, Schema.check, read, ok_bind] at failed
    refine .inl ⟨isShallow_of_ok found, ?_⟩
    cases checked with
    | good value => cases failed
    | bad issues =>
      obtain rfl : Fault.invalidRecord issues = fault := Except.error.inj failed
      rfl

/-- A call in prose that gives a value has had it from a reply. -/
theorem answer_of_ok {value : β} (asked : askInProse model schema sampling prompt = .ok value) :
    ∃ answer, model.complete sampling prompt = .ok answer ∧ readReply schema (replyText answer) = .ok value := by
  cases called : model.complete sampling prompt with
  | error raised =>
    rw [askInProse, called, valueInProse] at asked
    cases asked
  | ok answer =>
    rw [askInProse, called, valueInProse] at asked
    refine ⟨answer, rfl, ?_⟩
    cases read : readReply schema (replyText answer) with
    | ok other =>
      rw [read] at asked
      exact asked
    | error cause =>
      rw [read] at asked
      cases asked

/-- By what a call in prose fails: by what the model has raised, by a reply that does not read, or by a reply that is
nested too deeply. -/
theorem askInProse_fails
    (reads : ∀ answer, model.complete sampling prompt = .ok answer → schema.Reads (replyText answer)) {fault : Fault}
    (failed : askInProse model schema sampling prompt = .error fault) :
    (∃ raised, model.complete sampling prompt = .error raised ∧ fault = .chat .call (some raised)) ∨
      ∃ answer, model.complete sampling prompt = .ok answer ∧
        ((IsShallow (replyText answer) ∧
            ∃ cause, fault = .chat (.readReply schema.name) (some cause) ∧ cause.isBadValue = true) ∨
          ¬ IsShallow (replyText answer) ∧ fault.isDepth = true) := by
  cases called : model.complete sampling prompt with
  | error raised =>
    rw [askInProse, called, valueInProse] at failed
    exact .inl ⟨raised, rfl, (Except.error.inj failed).symm⟩
  | ok answer =>
    rw [askInProse, called, valueInProse] at failed
    refine .inr ⟨answer, rfl, ?_⟩
    cases read : readReply schema (replyText answer) with
    | ok value =>
      rw [read] at failed
      cases failed
    | error cause =>
      rw [read] at failed
      rcases readReply_fails (reads answer called) read with ⟨shallow, bad⟩ | ⟨deep, nested⟩
      · simp only [Except.mapError, bad, if_true] at failed
        exact .inl ⟨shallow, cause, (Except.error.inj failed).symm, bad⟩
      · have other : cause.isBadValue = false := by
          by_contra bad
          simp [Fault.isDepth_of_isBadValue (by simpa using bad)] at nested
        simp only [Except.mapError, other, Bool.false_eq_true, if_false] at failed
        exact .inr ⟨deep, Except.error.inj failed ▸ nested⟩

end Call

/-- What a judge tells of a call in prose. -/
inductive Verdict (called : Except Fault Json) : Except Fault Reply → Prop where
  | opinions {answer : Json} {reply : Reply} (arrived : called = .ok answer)
      (inRange : ∀ o ∈ reply.opinions, o.InRange) : Verdict called (.ok reply)
  | malformed {answer : Json} {fault : Fault} (arrived : called = .ok answer) (shallow : IsShallow (replyText answer))
      (bad : fault.HasBadCause) : Verdict called (.error (.oracleMalformed fault.message (some fault)))
  /-- The reply has arrived, but is nested too deeply. -/
  | tooDeep {answer : Json} {fault : Fault} (arrived : called = .ok answer) (deep : ¬ IsShallow (replyText answer))
      (nested : fault.isDepth = true) : Verdict called (.error (.oracleUnavailable fault.message (some fault)))
  | unavailable {raised fault : Fault} (failed : called = .error raised) (other : raised.isBadValue = false)
      (chat : fault = .chat .call (some raised)) :
      Verdict called (.error (.oracleUnavailable fault.message (some fault)))
  /-- No reply has arrived, but the call has failed by a bad value. -/
  | mistaken {raised fault : Fault} (failed : called = .error raised) (bad : raised.isBadValue = true)
      (chat : fault = .chat .call (some raised)) :
      Verdict called (.error (.oracleMalformed fault.message (some fault)))

/-- A judge makes its verdict of the fault of the call. -/
theorem oracle_eq {j : Judge} {model : Model} {request : Request} {shown : List (Summary Float)}
    (judges : j.model = .ok model) (prose : j.wantsObject = false) :
    j.oracle request shown
      = (askInProse model replySchema j.sampling (Judge.prompt request shown)).mapError Judge.oracleFault := by
  rw [Judge.oracle, judges, ok_bind, prose]
  rfl

theorem oracleFault_chat (step : ChatStep) (cause : Fault) :
    Judge.oracleFault (.chat step (some cause)) =
      (if cause.isBadValue then Fault.oracleMalformed else .oracleUnavailable)
        (Fault.chat step (some cause)).message (some (.chat step (some cause))) := by
  cases bad : cause.isBadValue <;> simp [Judge.oracleFault, bad]

theorem oracleFault_deep {fault : Fault} (deep : fault.isDepth = true) :
    Judge.oracleFault fault = .oracleUnavailable fault.message (some fault) := by
  cases fault with
  | badJson e => simp [Judge.oracleFault, deep]
  | _ => cases deep

theorem reads_replySchema {text : String} (bounded : ∀ score ∈ givenScores text, ¬ score.IsBoundless) :
    replySchema.Reads text := by
  intro record found
  rcases Reply.read_cases record with ⟨overflows, _⟩ | ⟨_, checked, read, _⟩
  · obtain ⟨score, given, boundless⟩ := exists_overflows.1 overflows
    rw [givenScores, found] at bounded
    exact absurd boundless (bounded score given)
  · exact ⟨checked, read⟩

theorem inRange_of_read {text : String} {reply : Reply} (read : readReply replySchema text = .ok reply) :
    ∀ o ∈ reply.opinions, o.InRange := by
  obtain ⟨record, found, checked⟩ := exists_of_bind_ok read
  rcases readReply_cases text (isShallow_of_ok found) with ⟨_, failed⟩ | ⟨_, ⟨other, same, inRange⟩ | ⟨_, failed, _⟩⟩
  · rw [read] at failed
    cases failed
  · rw [read] at same
    exact Except.ok.inj same ▸ inRange
  · rw [read] at failed
    cases failed

/-- A call in prose that fails, fails by a fault of the chat or as a reply is nested too deeply. Its cause is a bad
value exactly if a reply has arrived that is not nested too deeply, or the model has failed by a bad value. A judge
whose model is asked in prose, and gives no boundless score, tells of the call as `Verdict` says: of a malformed reply
in these two cases only, and of a model that cannot be reached in the others. -/
theorem cause_of_call {β : Type} {schema : Schema β} {model : Model} {sampling : Sampling} {prompt : Prompt}
    (reads : ∀ answer, model.complete sampling prompt = .ok answer → schema.Reads (replyText answer))
    {j : Judge} {request : Request} {shown : List (Summary Float)} (judges : j.model = .ok model)
    (prose : j.wantsObject = false)
    (bounded : ∀ answer, model.complete j.sampling (Judge.prompt request shown) = .ok answer →
      ∀ score ∈ givenScores (replyText answer), ¬ score.IsBoundless) :
    (∀ fault, askInProse model schema sampling prompt = .error fault →
      ((∃ step cause, fault = .chat step (some cause)) ∨ fault.isDepth = true) ∧
      (fault.HasBadCause ↔
        (∃ answer, model.complete sampling prompt = .ok answer ∧ IsShallow (replyText answer)) ∨
          ∃ raised, model.complete sampling prompt = .error raised ∧ raised.isBadValue = true)) ∧
    Verdict (model.complete j.sampling (Judge.prompt request shown)) (j.oracle request shown) := by
  constructor
  · intro fault failed
    rcases askInProse_fails reads failed with ⟨raised, called, rfl⟩ | ⟨answer, called, ⟨shallow, cause, rfl, bad⟩ |
      ⟨deep, nested⟩⟩
    · refine ⟨.inl ⟨_, _, rfl⟩, ?_⟩
      rw [Fault.hasBadCause_chat, called]
      simp
    · refine ⟨.inl ⟨_, _, rfl⟩, ?_⟩
      rw [Fault.hasBadCause_chat, called]
      simp [bad, shallow]
    · refine ⟨.inr nested, ?_⟩
      rw [called]
      simp [Fault.not_hasBadCause_of_isDepth nested, deep]
  · rw [oracle_eq judges prose]
    cases asked : askInProse model replySchema j.sampling (Judge.prompt request shown) with
    | ok reply =>
      obtain ⟨answer, called, read⟩ := answer_of_ok asked
      exact .opinions called (inRange_of_read read)
    | error fault =>
      rcases askInProse_fails (fun answer called => reads_replySchema (bounded answer called)) asked with
        ⟨raised, called, rfl⟩ | ⟨answer, called, ⟨shallow, cause, rfl, bad⟩ | ⟨deep, nested⟩⟩
      · rw [Except.mapError, oracleFault_chat]
        cases bad : raised.isBadValue with
        | true => exact .mistaken called bad rfl
        | false => exact .unavailable called bad rfl
      · rw [Except.mapError, oracleFault_chat, bad, if_pos rfl]
        exact .malformed called shallow (Fault.hasBadCause_chat.2 bad)
      · rw [Except.mapError, oracleFault_deep nested]
        exact .tooDeep called deep nested

/-- A model that fails by a bad value when it is asked to judge, and replies to all else with an object that does not
fit. -/
theorem cause_of_call_mistaken :
    let text := "\x7b\"rankings\": 5\x7d"
    let raised := Fault.raised .badValue "ValueError" "bad value"
    let model : Model := ⟨fun _ prompt => if prompt.user = "" then .ok (.str text) else .error raised,
      fun _ _ => .error .wrongType⟩
    (∃ fault, askInProse model replySchema {} ⟨"", ""⟩ = .error fault ∧ fault.HasBadCause) ∧
      Judge.oracle ⟨.ok model, none, false⟩ (.query "login") []
        = .error (.oracleMalformed "Chat call failed: bad value" (some (.chat .call (some raised)))) := by
  intro text raised model
  have called : model.complete {} ⟨"", ""⟩ = .ok (.str text) := rfl
  have asks : (Judge.prompt (.query "login") []).user ≠ "" := by decide +kernel
  have failed : model.complete {} (Judge.prompt (.query "login") []) = .error raised :=
    (if_neg asks : (if _ then Except.ok (Json.str text) else .error raised) = _)
  have found : (extractObject text).toBool = true := by decide +kernel
  have scores : givenScores text = [] := List.length_eq_zero_iff.1 (by decide +kernel)
  have unfit : (readReply replySchema text).toBool = false := by decide +kernel
  obtain ⟨causes, verdict⟩ := @cause_of_call Reply replySchema model {} ⟨"", ""⟩ (by
    intro answer arrived
    rw [called] at arrived
    obtain rfl := Except.ok.inj arrived
    exact reads_replySchema (by rw [replyText, scores]; exact List.forall_mem_nil _))
    ⟨.ok model, none, false⟩ (.query "login") [] rfl rfl (by
    intro answer arrived
    rw [show model.complete _ _ = _ from failed] at arrived
    cases arrived)
  constructor
  · cases asked : askInProse model replySchema {} ⟨"", ""⟩ with
    | ok reply =>
      obtain ⟨answer, arrived, read⟩ := answer_of_ok asked
      rw [called] at arrived
      obtain rfl := Except.ok.inj arrived
      rw [replyText] at read
      rw [read] at unfit
      cases unfit
    | error fault =>
      refine ⟨fault, rfl, (causes fault asked).2.2 (.inl ⟨_, called, ?_⟩)⟩
      cases object : extractObject text with
      | ok record => exact isShallow_of_ok object
      | error other =>
        rw [object] at found
        cases found
  · rw [show model.complete _ _ = _ from failed] at verdict
    generalize Judge.oracle ⟨.ok model, none, false⟩ (.query "login") [] = told at verdict
    cases verdict with
    | opinions arrived _ => cases arrived
    | malformed arrived _ _ => cases arrived
    | tooDeep arrived _ _ => cases arrived
    | unavailable same other _ => exact absurd other (Except.error.inj same ▸ by decide)
    | mistaken same _ chat =>
      obtain rfl := Except.error.inj same
      rw [chat]
      rfl

end Chat

end CodeSearch
