import CodeSearch.Chat.Judge
import CodeSearch.Proofs.Faults
import CodeSearch.Proofs.Record.Checked
/-!
# What becomes of a reply in prose

A chat model may reply with any text. It is read as a value, or the call fails with a fault of the chat whose cause is a
bad value, and then a judge tells that the reply is malformed. There is one way out of this: where a score in the reply is
beyond all bounds, the call fails by an overflow, which is neither a bad value nor a fault of the chat, and no judge tells
it apart (`arrived_reply`).

The cases are told once, for points (`readPoints_cases`), and then for an opinion, a list of them and a reply.
-/

namespace CodeSearch

open Record

/-- If some items are stopped at by a fault, and an answer comes of the others, the list is stopped at by that fault
exactly if there is such an item. -/
theorem mapM_cases {α β : Type} {f : α → Except Fault β} {fault : Fault} {stops : α → Prop} {items : List α}
    (each : ∀ a ∈ items, stops a ∧ f a = .error fault ∨ ¬ stops a ∧ ∃ b, f a = .ok b) :
    (∃ a ∈ items, stops a) ∧ items.mapM f = .error fault ∨
      (∀ a ∈ items, ¬ stops a) ∧ ∃ out, items.mapM f = .ok out := by
  induction items with
  | nil => exact .inr ⟨List.forall_mem_nil _, [], rfl⟩
  | cons a items ih =>
    rw [List.mapM_cons]
    rcases each a List.mem_cons_self with ⟨stopped, failed⟩ | ⟨passed, b, made⟩
    · exact .inl ⟨⟨a, List.mem_cons_self, stopped⟩, by rw [failed]; rfl⟩
    · rw [made, ok_bind]
      rcases ih fun other ho => each other (List.mem_cons_of_mem _ ho) with
        ⟨⟨other, ho, stopped⟩, failed⟩ | ⟨others, out, done⟩
      · exact .inl ⟨⟨other, List.mem_cons_of_mem _ ho, stopped⟩, by rw [failed]; rfl⟩
      · exact .inr ⟨List.forall_mem_cons.2 ⟨passed, others⟩, b :: out, by rw [done]; rfl⟩

namespace Json

theorem toDouble_fails (value : Json) :
    FailsBy (fun fault => fault = .overflow ∨ fault = .wrongType ∨ ∃ reason, fault = .badValue reason)
      value.toDouble := by
  cases value with
  | int n =>
    unfold toDouble
    simp only
    split
    · exact .error (.inl rfl)
    · exact .ok _
  | str s =>
    unfold toDouble
    simp only
    split
    · exact .ok _
    · exact .error (.inr (.inr ⟨_, rfl⟩))
  | null => exact .error (.inr (.inl rfl))
  | bool b => exact .ok _
  | float x => exact .ok x
  | arr items => exact .error (.inr (.inl rfl))
  | obj fields => exact .error (.inr (.inl rfl))

/-- The value is an integer beyond all doubles, or it stands for a double that is infinite. -/
def IsBoundless (value : Json) : Prop :=
  value.toDouble = .error .overflow ∨ ∃ x negative, value.toDouble = .ok x ∧ Decimal.decode x = .infinite negative

end Json

namespace Rerank

/-! ## Points and opinions -/

theorem clampPoints_bounds (n : Int) : 0 ≤ clampPoints n ∧ clampPoints n ≤ 10 := by
  unfold clampPoints
  omega

/-- Points are read from a value, or there are issues, unless the value is boundless. -/
theorem readPoints_cases (value : Json) :
    value.IsBoundless ∧ readPoints value = .error .overflow ∨
      ¬ value.IsBoundless ∧ ∃ checked, readPoints value = .ok checked ∧
        ∀ n, checked = .good n → 0 ≤ n ∧ n ≤ 10 := by
  unfold readPoints Json.IsBoundless
  cases made : value.toDouble with
  | error fault =>
    rcases Json.toDouble_fails value fault made with rfl | rfl | ⟨reason, rfl⟩
    · exact .inl ⟨.inl rfl, rfl⟩
    · exact .inr ⟨by simp, _, rfl, nofun⟩
    · exact .inr ⟨by simp, _, rfl, nofun⟩
  | ok x =>
    have round (after : Except Decimal.NotFinite Int) (rounded : Decimal.round x = after) :
        ((.ok x : Except Fault Float) >>= fun x => (Decimal.round x).mapError Fault.ofNotFinite) =
          after.mapError Fault.ofNotFinite := by
      rw [ok_bind, rounded]
    cases reading : Decimal.decode x with
    | nan =>
      rw [round (.error .nan) (by rw [Decimal.round, Decimal.onFinite, reading])]
      exact .inr ⟨by simp [reading], _, rfl, nofun⟩
    | infinite negative =>
      rw [round (.error .infinite) (by rw [Decimal.round, Decimal.onFinite, reading])]
      exact .inl ⟨.inr ⟨x, negative, rfl, reading⟩, rfl⟩
    | finite b =>
      rw [round (.ok _) (by rw [Decimal.round, Decimal.onFinite, reading])]
      refine .inr ⟨by simp [reading], _, rfl, fun n same => ?_⟩
      rw [← Checked.good.inj same]
      exact clampPoints_bounds _

/-- The points of an opinion are in the range. -/
def Opinion.InRange (o : Opinion) : Prop := 0 ≤ o.points ∧ o.points ≤ 10

/-- The score that an opinion gives, if it is an object with one. -/
def Opinion.score? : Json → Option Json
  | .obj record => Json.Fields.get? record "score"
  | _ => none

/-- An opinion gives a boundless score. -/
def Opinion.Overflows (value : Json) : Prop := ∃ score ∈ Opinion.score? value, score.IsBoundless

theorem Opinion.read_cases (value : Json) :
    Opinion.Overflows value ∧ Opinion.read value = .error .overflow ∨
      ¬ Opinion.Overflows value ∧ ∃ checked, Opinion.read value = .ok checked ∧ ∀ o, checked = .good o → o.InRange := by
  cases value with
  | obj record =>
    have read (checked : Checked Int) (points : ∀ n, checked = .good n → 0 ≤ n ∧ n ≤ 10) (o : Opinion)
        (made : Opinion.mk <$> required "chunk_id" text record <*> checked.under (.field "score")
          <*> optional "reasoning" "" text record = .good o) : o.InRange := by
      obtain ⟨_, _, first, _, made⟩ := Checked.seq_good made
      obtain ⟨_, n, first, scored, made₁⟩ := Checked.seq_good first
      obtain ⟨_, _, made₂⟩ := Checked.map_good first
      rw [← made, ← made₁, ← made₂]
      exact points n (Checked.under_good scored)
    cases given : Json.Fields.get? record "score" with
    | none =>
      refine .inr ⟨?_, _, ?_, read (.fail .missing) fun n same => by cases same⟩
      · rintro ⟨score, hs, _⟩
        rw [Opinion.score?, given] at hs
        cases hs
      · rw [Opinion.read, Opinion.readRecord, given]
        rfl
    | some score =>
      rcases readPoints_cases score with ⟨boundless, failed⟩ | ⟨bounded, checked, made, points⟩
      · refine .inl ⟨⟨score, given, boundless⟩, ?_⟩
        rw [Opinion.read, Opinion.readRecord, given]
        simp only [failed]
        rfl
      · refine .inr ⟨?_, _, ?_, read checked points⟩
        · rintro ⟨other, ho, boundless⟩
          rw [Opinion.score?, given] at ho
          obtain rfl := Option.some.inj ho
          exact bounded boundless
        · rw [Opinion.read, Opinion.readRecord, given]
          simp only [made]
          rfl
  | _ =>
    refine .inr ⟨by simp [Opinion.Overflows, Opinion.score?], .fail (.notModel "RerankScore"), rfl, fun o same => ?_⟩
    cases same

/-! ## Replies -/

/-- All opinions of a list are read, or there are issues, unless one of them gives a boundless score. -/
theorem Reply.readOpinions_cases (values : List Json) :
    (∃ value ∈ values, Opinion.Overflows value) ∧ Reply.readOpinions values = .error .overflow ∨
      (∀ value ∈ values, ¬ Opinion.Overflows value) ∧ ∃ checked, Reply.readOpinions values = .ok checked ∧
        ∀ opinions, checked = .good opinions → ∀ o ∈ opinions, o.InRange := by
  have mem {item : Json × Nat} (h : item ∈ values.zipIdx) : item.1 ∈ values := by
    rw [List.mem_zipIdx_iff_getElem?] at h
    exact List.mem_of_getElem? h
  have each : ∀ item ∈ values.zipIdx,
      Opinion.Overflows item.1 ∧ (do return (← Opinion.read item.1).under (.index item.2) :
        Except Fault (Checked Opinion)) = .error .overflow ∨
      ¬ Opinion.Overflows item.1 ∧ ∃ checked, (do return (← Opinion.read item.1).under (.index item.2) :
        Except Fault (Checked Opinion)) = .ok checked := by
    intro item _
    rcases Opinion.read_cases item.1 with ⟨overflows, failed⟩ | ⟨bounded, checked, made, _⟩
    · exact .inl ⟨overflows, by rw [failed]; rfl⟩
    · exact .inr ⟨bounded, _, by rw [made]; rfl⟩
  unfold Reply.readOpinions
  rcases mapM_cases each with ⟨⟨item, hi, overflows⟩, failed⟩ | ⟨others, out, done⟩
  · exact .inl ⟨⟨item.1, mem hi, overflows⟩, by rw [failed]; rfl⟩
  · refine .inr ⟨fun value hv => ?_, collect out, by rw [done]; rfl, fun opinions all o ho => ?_⟩
    · obtain ⟨n, hn, rfl⟩ := List.getElem_of_mem hv
      exact others (values[n], n) (List.mem_zipIdx_iff_getElem?.2 (List.getElem?_eq_getElem hn))
    · have there : Checked.good o ∈ out := by
        rw [collect_good all]
        exact List.mem_map_of_mem ho
      obtain ⟨item, _, made⟩ := mem_of_mapM_ok done _ there
      obtain ⟨checked, read, same⟩ := exists_of_bind_ok made
      rcases Opinion.read_cases item.1 with ⟨_, failed⟩ | ⟨_, other, read', inRange⟩
      · rw [read] at failed
        cases failed
      · rw [read] at read'
        obtain rfl := Except.ok.inj read'
        exact inRange o (Checked.under_good (Except.ok.inj same))

/-- The opinions that the fields of a reply list. -/
def Reply.listed (record : Json.Fields) : List Json :=
  match record.get? "rankings" with
  | some (.arr values) => values
  | _ => []

theorem Reply.read_cases (record : Json.Fields) :
    (∃ value ∈ Reply.listed record, Opinion.Overflows value) ∧ Reply.read (.obj record) = .error .overflow ∨
      (∀ value ∈ Reply.listed record, ¬ Opinion.Overflows value) ∧ ∃ checked, Reply.read (.obj record) = .ok checked ∧
        ∀ reply, checked = .good reply → ∀ o ∈ reply.opinions, o.InRange := by
  have read (checked : Checked (List Opinion))
      (points : ∀ opinions, checked = .good opinions → ∀ o ∈ opinions, o.InRange) (reply : Reply)
      (made : (checked.under (.field "rankings")).map Reply.mk = .good reply) : ∀ o ∈ reply.opinions, o.InRange := by
    obtain ⟨opinions, under, rfl⟩ := Checked.map_good made
    exact points opinions (Checked.under_good under)
  unfold Reply.listed
  cases given : Json.Fields.get? record "rankings" with
  | none =>
    refine .inr ⟨List.forall_mem_nil _, _, ?_, read (.good []) fun opinions same => ?_⟩
    · rw [Reply.read, given]
      rfl
    · rw [← Checked.good.inj same]
      exact List.forall_mem_nil _
  | some value =>
    cases value with
    | arr values =>
      rcases Reply.readOpinions_cases values with ⟨overflows, failed⟩ | ⟨bounded, checked, made, points⟩
      · refine .inl ⟨overflows, ?_⟩
        rw [Reply.read, given]
        simp only [failed]
        rfl
      · refine .inr ⟨bounded, _, ?_, read checked points⟩
        rw [Reply.read, given]
        simp only [made]
        rfl
    | _ =>
      refine .inr ⟨List.forall_mem_nil _, _, ?_, read (.fail .notList) nofun⟩
      rw [Reply.read, given]
      rfl

end Rerank

namespace Chat

open Rerank

/-! ## Texts -/

/-- No object is found in a text, or its values are nested too deeply. -/
theorem extractObject_fails (text : String) :
    FailsBy (fun fault => fault.isBadValue = true ∨ fault.isDepth = true) (extractObject text) := by
  unfold extractObject
  split
  · exact .error (.inl rfl)
  · split
    · exact .ok _
    · exact .error (.inl rfl)
    next e _ =>
      split
      · exact .error (.inl rfl)
      · refine .error ?_
        rw [Fault.isBadValue, Fault.isDepth]
        cases e.issue.isDepth <;> simp

/-- Nothing in a text is nested too deeply. -/
def IsShallow (text : String) : Prop := ∀ fault, extractObject text = .error fault → fault.isDepth = false

/-- The scores that the opinions in a text give. -/
def givenScores (text : String) : List Json :=
  match extractObject text with
  | .ok record => (Reply.listed record).filterMap Opinion.score?
  | .error _ => []

theorem exists_overflows {record : Json.Fields} :
    (∃ value ∈ Reply.listed record, Opinion.Overflows value) ↔
      ∃ score ∈ (Reply.listed record).filterMap Opinion.score?, score.IsBoundless := by
  simp only [List.mem_filterMap, Opinion.Overflows, Option.mem_def]
  constructor
  · rintro ⟨value, hv, score, given, boundless⟩
    exact ⟨score, ⟨value, hv, given⟩, boundless⟩
  · rintro ⟨score, ⟨value, hv, given⟩, boundless⟩
    exact ⟨value, hv, score, given, boundless⟩

theorem readReply_cases (text : String) (shallow : IsShallow text) :
    (∃ score ∈ givenScores text, score.IsBoundless) ∧ readReply replySchema text = .error .overflow ∨
      (¬ ∃ score ∈ givenScores text, score.IsBoundless) ∧
        ((∃ reply, readReply replySchema text = .ok reply ∧ ∀ o ∈ reply.opinions, o.InRange) ∨
          ∃ fault, readReply replySchema text = .error fault ∧ fault.isBadValue = true) := by
  unfold givenScores readReply
  cases found : extractObject text with
  | error fault =>
    refine .inr ⟨by simp, .inr ⟨fault, rfl, ?_⟩⟩
    exact (extractObject_fails text fault found).resolve_right (by simp [shallow fault found])
  | ok record =>
    rw [← exists_overflows, ok_bind]
    have schema : replySchema.read = Reply.read := rfl
    rw [Schema.check, schema]
    rcases Reply.read_cases record with ⟨overflows, failed⟩ | ⟨bounded, checked, made, inRange⟩
    · exact .inl ⟨overflows, by rw [failed]; rfl⟩
    · refine .inr ⟨fun ⟨value, hv, overflows⟩ => bounded value hv overflows, ?_⟩
      rw [made, ok_bind]
      cases checked with
      | good reply => exact .inl ⟨reply, rfl, inRange reply rfl⟩
      | bad issues => exact .inr ⟨.invalidRecord issues, rfl, rfl⟩

/-! ## Calls -/

/-- What a call and a judge make of a reply that has arrived: the same value; a fault of the chat with a bad value for its
cause, and the fault of a malformed reply; or, for a boundless score and for nothing else, the same overflow. -/
inductive Arrived (text : String) : Except Fault Reply → Except Fault Reply → Prop where
  | read (reply : Reply) (bounded : ∀ score ∈ givenScores text, ¬ score.IsBoundless)
      (inRange : ∀ o ∈ reply.opinions, 0 ≤ o.points ∧ o.points ≤ 10) : Arrived text (.ok reply) (.ok reply)
  | malformed (cause : Fault) (bounded : ∀ score ∈ givenScores text, ¬ score.IsBoundless)
      (bad : cause.isBadValue = true) :
      Arrived text (.error (.chat (.readReply "RerankResponse") (some cause)))
        (.error (.oracleMalformed (Fault.chat (.readReply "RerankResponse") (some cause)).message
          (some (.chat (.readReply "RerankResponse") (some cause)))))
  | overflow (score : Json) (given : score ∈ givenScores text) (boundless : score.IsBoundless) :
      Arrived text (.error .overflow) (.error .overflow)

/-- Whatever text a model replies with, as long as nothing in it is nested too deeply, the call and the judge end as
`Arrived` says. -/
theorem arrived_reply {model : Model} {sampling : Sampling} {prompt : Prompt} {answer : Json} {j : Judge}
    {request : Request} {shown : List (Summary Float)} (shallow : IsShallow (replyText answer))
    (arrives : model.complete sampling prompt = .ok answer) (judges : j.model = .ok model)
    (prose : j.wantsObject = false) (heard : model.complete j.sampling (Judge.prompt request shown) = .ok answer) :
    Arrived (replyText answer) (askInProse model replySchema sampling prompt) (j.oracle request shown) := by
  have judged : j.oracle request shown = (valueInProse replySchema (.ok answer)).mapError Judge.oracleFault := by
    rw [Judge.oracle, judges, ok_bind, prose]
    simp only [Bool.false_eq_true, if_false]
    rw [askInProse, heard]
  rw [judged, askInProse, arrives, valueInProse]
  rcases readReply_cases _ shallow with ⟨⟨score, given, boundless⟩, failed⟩ |
    ⟨bounded, ⟨reply, read, inRange⟩ | ⟨fault, failed, bad⟩⟩
  · rw [failed]
    exact .overflow score given boundless
  · rw [read]
    exact .read reply (fun score hs boundless => bounded ⟨score, hs, boundless⟩) inRange
  · rw [failed]
    have told : Arrived (replyText answer) (.error (.chat (.readReply "RerankResponse") (some fault)))
        (.error (.oracleMalformed (Fault.chat (.readReply "RerankResponse") (some fault)).message
          (some (.chat (.readReply "RerankResponse") (some fault))))) :=
      .malformed fault (fun score hs boundless => bounded ⟨score, hs, boundless⟩) bad
    have name : replySchema.name = "RerankResponse" := rfl
    simpa [Except.mapError, bad, Judge.oracleFault, name] using told

/-- A reply with prose around it and a score out of the range. -/
theorem arrived_reply_sample :
    let text := "Here it is: \x7b\"rankings\": [\x7b\"chunk_id\": \"a\", \"score\": 12.6\x7d]\x7d."
    let model : Model := ⟨fun _ _ => .ok (.str text), fun _ _ => .error .wrongType⟩
    IsShallow text ∧ Arrived text (askInProse model replySchema {} ⟨"", ""⟩)
      (Judge.oracle ⟨.ok model, none, false⟩ (.query "login") []) := by
  intro text model
  have found : (extractObject text).toBool = true := by decide +kernel
  have shallow : IsShallow (replyText (.str text)) := by
    intro fault (failed : extractObject text = .error fault)
    rw [failed] at found
    cases found
  exact ⟨shallow, arrived_reply shallow rfl rfl rfl rfl⟩

/-- The reply has the value that the schema asks for, but for its score. -/
example : (match readReply replySchema "\x7b\"rankings\": [\x7b\"chunk_id\": \"a\", \"score\": Infinity\x7d]\x7d" with
    | .error .overflow => true
    | _ => false) = true := by decide +kernel

end Chat

end CodeSearch
