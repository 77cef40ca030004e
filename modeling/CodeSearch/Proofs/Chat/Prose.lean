import CodeSearch.Proofs.Chat.Causes
import CodeSearch.Proofs.Chunk.RoundTrip
import CodeSearch.Proofs.Json.Ascii
/-!
# Replies with prose around them

A chat model may put prose around the object it is asked for. `reply_in_prose`: a reply that is written in the data
format in any way, between a text without an opening brace and a text without a closing one, is read as that reply; the
printer writes it in such a way in every style. What is found between braces is an object if it is a value at all, so
that it is not one is never the fault (`extractObject_ne_other`).
-/

namespace CodeSearch.Json

/-! ## What begins with a brace -/

/-- An object is all that the reader of fields makes. -/
theorem readFields_object {fuel depth : Nat} {before : Fields} {text rest : List Char} {value : Json}
    (read : readFields fuel depth before text = .ok (value, rest)) : ∃ fields, value = .obj fields := by
  induction fuel generalizing before text with
  | zero => cases read
  | succ fuel ih =>
    rw [readFields.eq_def] at read
    simp only [bind, Except.bind] at read
    split at read
    next =>
      split at read
      next => cases read
      next =>
        split at read
        next =>
          split at read
          next => cases read
          next =>
            split at read
            next =>
              injection read with read
              exact ⟨_, (Prod.mk.inj read).1.symm⟩
            next => exact ih read
            next => cases read
        next => cases read
    next => cases read

theorem readValue_brace {fuel depth : Nat} {text rest : List Char} {value : Json}
    (read : readValue fuel depth ('\x7b' :: text) = .ok (value, rest)) : ∃ fields, value = .obj fields := by
  cases fuel with
  | zero => cases read
  | succ fuel =>
    rw [readValue] at read
    split at read
    next => cases read
    next =>
      split at read
      next =>
        injection read with read
        exact ⟨_, (Prod.mk.inj read).1.symm⟩
      next => exact readFields_object read

theorem parseChars_brace {more : List Char} {value : Json} (read : parseChars ('\x7b' :: more) = .ok value) :
    ∃ fields, value = .obj fields := by
  rw [parseChars.eq_def] at read
  split at read
  next e => exact absurd (List.cons.inj e).1 (by decide)
  next =>
    simp only [bind, Except.bind] at read
    split at read
    next => cases read
    next answer found =>
      split at read
      next =>
        injection read with read
        exact read ▸ readValue_brace found
      next => cases read

/-- A text that begins with a brace is an object, if it is a value. -/
theorem parse_brace {text : String} {more : List Char} (first : text.toList = '\x7b' :: more) {value : Json}
    (read : parse text = .ok value) : ∃ fields, value = .obj fields := by
  rw [parse, first] at read
  cases found : parseChars ('\x7b' :: more) with
  | error failure =>
    rw [found] at read
    cases read
  | ok other =>
    rw [found] at read
    injection read with read
    exact parseChars_brace (read ▸ found)

end CodeSearch.Json

namespace CodeSearch.Chat

open Rerank Record

/-! ## Between braces -/

/-- What is found between braces begins with one. -/
theorem braced?_brace {text part : List Char} (found : braced? text = some part) : ∃ more, part = '\x7b' :: more := by
  dsimp only [braced?] at found
  split at found
  next => cases found
  next closed =>
    injection found with found
    have kept := List.rdropWhile_prefix (fun c => decide (c ≠ '\x7d')) (text.dropWhile (· ≠ '\x7b'))
    rw [List.rdropWhile, found] at kept
    cases part with
    | nil =>
      rw [found] at closed
      exact absurd rfl closed
    | cons c more =>
      have first := List.head?_dropWhile_not (fun c => decide (c ≠ '\x7b')) text
      obtain ⟨rest, same⟩ := kept
      rw [← same, List.cons_append, List.head?_cons] at first
      exact ⟨more, by simpa using first⟩

/-- A text that begins with a brace and ends with one is found between texts that do not hold its braces. -/
theorem braced?_between {before body after : List Char} (noOpening : '\x7b' ∉ before) (noClosing : '\x7d' ∉ after) :
    braced? (before ++ ('\x7b' :: (body ++ ['\x7d']) ++ after)) = some ('\x7b' :: (body ++ ['\x7d'])) := by
  have opened : (before ++ ('\x7b' :: (body ++ ['\x7d']) ++ after)).dropWhile (· ≠ '\x7b')
      = '\x7b' :: (body ++ ['\x7d']) ++ after := by
    rw [List.dropWhile_append_of_pos]
    · rfl
    · intro c hc
      exact decide_eq_true fun same => noOpening (same ▸ hc)
  have closed : (('\x7b' :: (body ++ ['\x7d']) ++ after).reverse.dropWhile (· ≠ '\x7d')).reverse
      = '\x7b' :: (body ++ ['\x7d']) := by
    rw [List.reverse_append, List.dropWhile_append_of_pos]
    · simp
    · intro c hc
      exact decide_eq_true fun same => noClosing (same ▸ List.mem_reverse.1 hc)
  rw [braced?]
  simp only [opened, closed, List.isEmpty_cons, Bool.false_eq_true, if_false]

/-- It is never said of a reply that its object is something else. -/
theorem extractObject_ne_other (text typeName : String) :
    extractObject text ≠ .error (.badValue (.noObjectButOther typeName)) := by
  intro failed
  rw [extractObject] at failed
  split at failed
  next => cases failed
  next part found =>
    obtain ⟨more, rfl⟩ := braced?_brace found
    split at failed
    next => cases failed
    next other noObject read =>
      obtain ⟨fields, rfl⟩ := Json.parse_brace String.toList_ofList read
      exact noObject fields rfl
    next e _ =>
      split at failed
      next => cases failed
      next => cases failed

/-! ## Replies as they are written -/

/-- Points in the range are read as they are. -/
theorem readPoints_int {n : Int} (low : 0 ≤ n) (high : n ≤ 10) : readPoints (.int n) = .ok (.good n) := by
  have each : ∀ k : Fin 11, ((readPoints (.int k)).toOption.bind Checked.value?) = some (k : Int) := by decide +kernel
  obtain ⟨k, rfl⟩ := Int.eq_ofNat_of_zero_le low
  have read := each ⟨k, by omega⟩
  cases made : readPoints (.int k) with
  | error fault =>
    rw [made] at read
    cases read
  | ok checked =>
    rw [made] at read
    cases checked with
    | good m => rw [show m = _ from Option.some.inj read]
    | bad issues => cases read

theorem read_opinion {o : Opinion} (h : o.InRange) : Opinion.read o.json = .ok (.good o) := by
  have points : Json.Fields.get? [("chunk_id", .str o.chunkId), ("score", .int o.points),
      ("reasoning", .str o.reasoning)] "score" = some (.int o.points) := rfl
  rw [Opinion.json, Opinion.read, Opinion.readRecord, points]
  simp only [readPoints_int h.1 h.2]
  rfl

theorem read_reply {r : Reply} (h : ∀ o ∈ r.opinions, o.InRange) : Reply.read r.json = .ok (.good r) := by
  have each : ∀ item ∈ r.opinions.zipIdx,
      ((do return (← Opinion.read item.1.json).under (.index item.2)) : Except Fault (Checked Opinion))
        = .ok (.good item.1) := by
    intro item hi
    rw [read_opinion (h _ (List.fst_mem_of_mem_zipIdx hi))]
    rfl
  have opinions : Reply.readOpinions (r.opinions.map Opinion.json) = .ok (.good r.opinions) := by
    rw [Reply.readOpinions, List.zipIdx_map, List.mapM_map]
    change (r.opinions.zipIdx.mapM (fun item => do return (← Opinion.read item.1.json).under (.index item.2))
      >>= fun found => .ok (collect found)) = _
    rw [mapM_ok each]
    have all : (r.opinions.zipIdx.map fun item => Checked.good item.1) = r.opinions.map Checked.good := by
      conv_rhs => rw [← List.zipIdx_map_fst 0 r.opinions, List.map_map]
      rfl
    rw [all, ok_bind, collect_map_good]
  have listed : Json.Fields.get? [("rankings", .arr (r.opinions.map Opinion.json))] "rankings"
      = some (.arr (r.opinions.map Opinion.json)) := rfl
  rw [Reply.json, Reply.read, listed]
  simp only [opinions]
  rfl

/-- A text that is a value in the data format, with nothing before its first brace and after its last. -/
structure Writes (written : String) (value : Json) : Prop where
  braced : ∃ body, written.toList = '\x7b' :: (body ++ ['\x7d'])
  read : Json.parse written = .ok value

theorem extractObject_between {written : String} {fields : Json.Fields} (writes : Writes written (.obj fields))
    {before after : String} (noOpening : '\x7b' ∉ before.toList) (noClosing : '\x7d' ∉ after.toList) :
    extractObject (before ++ written ++ after) = .ok fields := by
  obtain ⟨body, text⟩ := writes.braced
  have found : braced? (before ++ written ++ after).toList = some written.toList := by
    rw [String.toList_append, String.toList_append, List.append_assoc, text]
    exact braced?_between noOpening noClosing
  rw [extractObject, found]
  simp only [String.ofList_toList, writes.read]

/-- The texts of a reply can be written in a style. In ASCII alone two halves side by side are the character of their
pair, so none may stand so; all else can be written in every style. -/
def IsWritable (style : Json.Style) (r : Reply) : Prop :=
  style.asciiOnly = true → ∀ o ∈ r.opinions, Json.Unpaired o.chunkId ∧ Json.Unpaired o.reasoning

/-- All texts of a reply are kept. -/
def IsKept (r : Reply) : Prop :=
  ∀ o ∈ r.opinions, Text.IsKept o.chunkId.toList ∧ Text.IsKept o.reasoning.toList

theorem depth_json (r : Reply) : r.json.depth ≤ 4 := by
  have opinions : Json.itemsDepth (r.opinions.map Opinion.json) ≤ 2 := by
    refine Json.itemsDepth_le fun item hi => ?_
    obtain ⟨o, _, rfl⟩ := List.mem_map.1 hi
    simp [Opinion.json, Json.depth, Json.fieldsDepth]
  simp only [Reply.json, Json.depth, Json.fieldsDepth]
  omega

theorem isData_opinion {o : Opinion} (inRange : o.InRange) (kept : Text.IsKept o.chunkId.toList)
    (kept' : Text.IsKept o.reasoning.toList) : o.json.IsData := by
  obtain ⟨k, points⟩ := Int.eq_ofNat_of_zero_le inRange.1
  have small : k < 10 ^ 2 := by
    have := inRange.2
    omega
  have digits : (Json.int o.points).IsData :=
    points ▸ Chunk.isData_nat (hasDigits_of_lt small (by decide) (by decide))
  refine Json.isData_obj.2 ⟨by simp, ?_⟩
  simp only [List.forall_mem_cons]
  exact ⟨⟨Chunk.isKept_ascii (by decide), Json.isData_str.2 kept⟩, ⟨Chunk.isKept_ascii (by decide), digits⟩,
    ⟨Chunk.isKept_ascii (by decide), Json.isData_str.2 kept'⟩, List.forall_mem_nil _⟩

theorem isData_json {r : Reply} (inRange : ∀ o ∈ r.opinions, o.InRange) (kept : IsKept r) : r.json.IsData := by
  have opinions : (Json.arr (r.opinions.map Opinion.json)).IsData := by
    refine Json.isData_arr.2 fun item hi => ?_
    obtain ⟨o, ho, rfl⟩ := List.mem_map.1 hi
    exact isData_opinion (inRange o ho) (kept o ho).1 (kept o ho).2
  refine Json.isData_obj.2 ⟨by simp, ?_⟩
  simp only [List.forall_mem_cons]
  exact ⟨⟨Chunk.isKept_ascii (by decide), opinions⟩, List.forall_mem_nil _⟩

/-- All texts of a reply read back in a style that they can be written in. -/
theorem readsBack_json {r : Reply} (kept : IsKept r) {style : Json.Style} (writable : IsWritable style r) :
    r.json.AllTexts (Json.ReadsBack style) := by
  have text {s : String} (kept : Text.IsKept s.toList) (unpaired : style.asciiOnly = true → Json.Unpaired s) :
      Json.ReadsBack style s := by
    cases ascii : style.asciiOnly with
    | false => exact Json.readsBack_plain ascii s
    | true => exact Json.readsBack_ascii ascii kept (unpaired ascii)
  have name {s : String} (ascii : s.toList.all (fun c => c.toNat < 128) = true) (unpaired : Json.Unpaired s) :
      Json.ReadsBack style s := text (Chunk.isKept_ascii ascii) fun _ => unpaired
  have opinions : Json.ItemsTexts (Json.ReadsBack style) (r.opinions.map Opinion.json) := by
    refine Json.itemsTexts_iff.2 fun item hi => ?_
    obtain ⟨o, ho, rfl⟩ := List.mem_map.1 hi
    simp only [Opinion.json, Json.AllTexts, Json.FieldsTexts, and_true, true_and]
    exact ⟨name (by decide) (by decide), text (kept o ho).1 fun ascii => (writable ascii o ho).1,
      name (by decide) (by decide), name (by decide) (by decide),
      text (kept o ho).2 fun ascii => (writable ascii o ho).2⟩
  simp only [Reply.json, Json.AllTexts, Json.FieldsTexts, and_true]
  exact ⟨name (by decide) (by decide), opinions⟩

/-- The printer writes a reply in every style that its texts can be written in. -/
theorem writes_render {r : Reply} (inRange : ∀ o ∈ r.opinions, o.InRange) (kept : IsKept r) {style : Json.Style}
    (writable : IsWritable style r) : Writes (Json.render style r.json) r.json where
  braced := by
    rw [Json.render, String.toList_ofList, Reply.json, Json.chars_obj, Json.objectBody]
    exact ⟨_, by simp only [← List.append_assoc, ← List.cons_append]; rfl⟩
  read := Json.parse_render_style (isData_json inRange kept) (readsBack_json kept writable)
    ((depth_json r).trans (by decide))

/-- Whatever a reply is made of, it is read as it is from an answer that holds it between a text without an opening
brace and a text without a closing one: as the printer writes it, in any style, and in any other spelling of the same
value. Whatever a text holds, it is never said that what stands between its braces is something else than an object. -/
theorem reply_in_prose {r : Reply} (inRange : ∀ o ∈ r.opinions, o.InRange) (kept : IsKept r) {before after : String}
    (noOpening : '\x7b' ∉ before.toList) (noClosing : '\x7d' ∉ after.toList) {model : Model} {sampling : Sampling}
    {prompt : Prompt} :
    (∀ style, IsWritable style r →
      model.complete sampling prompt = .ok (.str (before ++ Json.render style r.json ++ after)) →
      askInProse model replySchema sampling prompt = .ok r) ∧
    (∀ written, Writes written r.json →
      model.complete sampling prompt = .ok (.str (before ++ written ++ after)) →
      askInProse model replySchema sampling prompt = .ok r) ∧
    ∀ text typeName, extractObject text ≠ .error (.badValue (.noObjectButOther typeName)) := by
  have read (written : String) (writes : Writes written r.json)
      (answers : model.complete sampling prompt = .ok (.str (before ++ written ++ after))) :
      askInProse model replySchema sampling prompt = .ok r := by
    have schema : replySchema.read = Reply.read := rfl
    have reads : readReply replySchema (before ++ written ++ after) = .ok r := by
      rw [readReply, extractObject_between writes noOpening noClosing, ok_bind, Schema.check, schema]
      rw [show Reply.read (.obj _) = _ from read_reply inRange]
      rfl
    rw [askInProse, answers, valueInProse, replyText, reads]
    rfl
  exact ⟨fun style writable => read _ (writes_render inRange kept writable), read, extractObject_ne_other⟩

/-- An opinion whose texts hold braces, quotes, backslashes, a control character, half of a pair and a character beyond
the first plane, written in ASCII and on several lines. -/
theorem reply_in_prose_sample :
    let r : Reply := ⟨[⟨"a\x7d\x7b\"", 7, "\\ \x01 \x7b\x7d " ++ Text.ofCodes [0xd83d, 0x1f600]⟩]⟩
    let written := Json.render { asciiOnly := true, indent := some 2 } r.json
    let model : Model := ⟨fun _ _ => .ok (.str ("Here it is\x7d: " ++ written ++ " \x7b Done.")),
      fun _ _ => .error .wrongType⟩
    askInProse model replySchema {} ⟨"", ""⟩ = .ok r := by
  intro r written model
  have inRange : ∀ o ∈ r.opinions, o.InRange := by
    rw [List.forall_mem_singleton]
    exact ⟨by decide, by decide⟩
  have kept : IsKept r := by
    have codes : ∀ code ∈ [0xd83d, 0x1f600], Text.IsCode code :=
      List.forall_mem_cons.2 ⟨.inl rfl, List.forall_mem_singleton.2 (.inr (.inr (by decide)))⟩
    rw [IsKept, List.forall_mem_singleton, String.toList_append]
    exact ⟨Chunk.isKept_ascii (by decide), (Chunk.isKept_ascii (by decide)).append
      ⟨_, codes, String.toList_ofList⟩⟩
  have writable : IsWritable { asciiOnly := true, indent := some 2 } r := by
    intro _
    rw [List.forall_mem_singleton]
    exact ⟨by decide +kernel, by decide +kernel⟩
  exact (reply_in_prose inRange kept (by decide +kernel) (by decide +kernel)).1 _ writable rfl

end CodeSearch.Chat
