import DevOpsAssistant.Frontend.ParseSse

/-!
# What is encoded is read back

* `unit_mem_js`: the code units of a text, and its characters.
* `consumeLine_field`, `consumeLine_empty`: the lines of an encoded event.
* `consume_encodeSse`: an encoded event, and what comes after it.
* `pushAll_eq`: chunks are read as the text they are cut from.
* **`sse_roundTrip`**: a stream of events is read back from its chunks.
-/

namespace DevOps

namespace ParseSse

/-! ## Code units -/

section Units

variable {c d : Char} {text : String}

theorem js_append (a b : String) : js (a ++ b) = js a ++ js b := by
  rw [js, String.toList_append, List.flatMap_append]
  rfl

theorem toNat_lt (c : Char) : c.toNat < 0x110000 := by
  rcases c.valid with h | ⟨-, h⟩
  · exact Nat.lt_trans h (by decide)
  · exact h

theorem eq_of_unit_mem_utf16 (hd : d.toNat < 0x80) (h : unit d ∈ utf16 c) : c = d := by
  have hnat : c.toNat = d.toNat := by
    unfold utf16 at h
    split_ifs at h with hlt
    · rw [List.mem_singleton] at h
      have := congrArg UInt16.toNat h
      simp [unit] at this
      omega
    · have hmax := toNat_lt c
      rw [List.mem_cons, List.mem_singleton] at h
      rcases h with h | h
      · have := congrArg UInt16.toNat h
        simp [unit] at this
        omega
      · have := congrArg UInt16.toNat h
        simp [unit] at this
        omega
  exact Char.toNat_inj.mp hnat

theorem unit_mem_js (hd : d.toNat < 0x80) (h : unit d ∈ js text) : d ∈ text.toList := by
  obtain ⟨c, hc, hmem⟩ := List.mem_flatMap.mp h
  rwa [← eq_of_unit_mem_utf16 hd hmem]

theorem js_ne_nil (h : text ≠ "") : js text ≠ [] := by
  obtain ⟨c, cs, hcs⟩ := List.exists_cons_of_ne_nil (fun htext => h (String.toList_eq_nil_iff.mp htext))
  rw [js, hcs, List.flatMap_cons, utf16]
  split <;> simp

end Units

/-! ## Lines -/

section Lines

variable {f : SseFields} {field value line : JsString}

/-- A line without a carriage return. -/
theorem consumeLine_eq (h : unit '\r' ∉ line) :
    consumeLine f line = ((processLine f line).1.toList, (processLine f line).2) := by
  rw [consumeLine, if_neg fun hlast => h (List.mem_of_getLast? hlast)]

theorem fieldOf_eq (h : unit ':' ∉ field) : fieldOf (field ++ unit ':' :: unit ' ' :: value) =
    (field, value) := by
  rw [fieldOf, Text.splitFirst_append h]
  rfl

/-- A line with a field is neither empty nor a comment. -/
theorem processLine_field (h : unit ':' ∉ field) (hne : field ≠ []) :
    processLine f (field ++ unit ':' :: unit ' ' :: value) =
      if field = js "event" then (none, { f with eventName := value })
      else if field = js "data" then (none, { f with dataLines := f.dataLines ++ [value] })
      else if field = js "id" then (none, if 0 ∈ value then f else { f with eventId := some value })
      else (none, f) := by
  have hcomment : (field ++ unit ':' :: unit ' ' :: value).head? ≠ some (unit ':') := by
    rw [List.head?_append_of_ne_nil _ hne]
    exact fun hhead => h (List.mem_of_head? hhead)
  rw [processLine, if_neg hcomment, if_neg (by simp), fieldOf_eq h]

theorem processLine_event : processLine f (js "event" ++ unit ':' :: unit ' ' :: value) =
    (none, { f with eventName := value }) := by
  rw [processLine_field (by decide) (by decide), if_pos rfl]

theorem processLine_data : processLine f (js "data" ++ unit ':' :: unit ' ' :: value) =
    (none, { f with dataLines := f.dataLines ++ [value] }) := by
  rw [processLine_field (by decide) (by decide), if_neg (by decide), if_pos rfl]

end Lines

/-! ## Streams -/

section Streams

variable {f : SseFields} {event : String} {data : List (String × JsonValue)} {rest : JsString}

theorem js_encodeSse : js (encodeSse event data) ++ rest =
    (js "event" ++ unit ':' :: unit ' ' :: js event) ++ unit '\n' ::
      ((js "data" ++ unit ':' :: unit ' ' :: js (jsonDumps (.object data))) ++ unit '\n' ::
        ([] ++ unit '\n' :: rest)) := by
  have hevent : js "event: " = js "event" ++ [unit ':', unit ' '] := by decide
  have hdata : js "\ndata: " = unit '\n' :: (js "data" ++ [unit ':', unit ' ']) := by decide
  have hend : js "\n\n" = [unit '\n', unit '\n'] := by decide
  simp only [encodeSse, js_append, hevent, hdata, hend, List.append_assoc, List.cons_append,
    List.nil_append]

/-- A character that is neither in the field nor in the value of a line. -/
theorem unit_not_mem_line {field : JsString} {text : String} {d : Char} (hd : d.toNat < 0x80)
    (hfield : unit d ∉ field ++ [unit ':', unit ' ']) (htext : d ∉ text.toList) :
    unit d ∉ field ++ unit ':' :: unit ' ' :: js text := by
  have hline : field ++ unit ':' :: unit ' ' :: js text = (field ++ [unit ':', unit ' ']) ++ js text := by
    simp
  rw [hline, List.mem_append, not_or]
  exact ⟨hfield, fun h => htext (unit_mem_js hd h)⟩

/-- **An encoded event**, and what comes after it. -/
theorem consume_encodeSse (hne : event ≠ "") (hlf : '\n' ∉ event.toList) (hcr : '\r' ∉ event.toList) :
    consumeCompleteLines resetFields (js (encodeSse event data) ++ rest) =
      (⟨js event, js (jsonDumps (.object data)), none⟩ :: (consumeCompleteLines resetFields rest).1,
        (consumeCompleteLines resetFields rest).2) := by
  rw [js_encodeSse]
  have hprintable : Printable (jsonDumps (.object data)).toList := printable_jsonDumps _
  generalize jsonDumps (.object data) = payload at hprintable ⊢
  rw [consumeCompleteLines,
    Text.feedLines_line (unit_not_mem_line (by decide) (by decide) hlf),
    Text.feedLines_line (unit_not_mem_line (by decide) (by decide) (hprintable.not_mem (by decide))),
    Text.feedLines_line List.not_mem_nil,
    consumeLine_eq (unit_not_mem_line (by decide) (by decide) hcr), processLine_event,
    consumeLine_eq (unit_not_mem_line (by decide) (by decide) (hprintable.not_mem (by decide))),
    processLine_data, consumeLine_eq List.not_mem_nil]
  have hemit : processLine ⟨js event, [js payload], none⟩ [] =
      (some ⟨js event, js payload, none⟩, resetFields) := by
    rw [processLine, if_neg (by simp), if_pos rfl, emitCurrent, if_neg fun h => js_ne_nil hne h.1,
      if_neg (js_ne_nil hne), List.intercalate_singleton]
  simp only [resetFields, List.nil_append, Option.toList_none] at hemit ⊢
  rw [hemit]
  rfl

/-- An encoded stream: its events, and no line that is not finished. -/
theorem consume_stream : ∀ events : List (String × List (String × JsonValue)),
    (∀ e ∈ events, e.1 ≠ "" ∧ '\n' ∉ e.1.toList ∧ '\r' ∉ e.1.toList) →
    consumeCompleteLines resetFields (events.flatMap fun e => js (encodeSse e.1 e.2)) =
      (events.map fun e => ⟨js e.1, js (jsonDumps (.object e.2)), none⟩, resetFields, [])
  | [], _ => Text.feedLines_of_not_mem List.not_mem_nil
  | e :: events, h => by
    rw [List.forall_mem_cons] at h
    obtain ⟨⟨hne, hlf, hcr⟩, hrest⟩ := h
    rw [List.flatMap_cons, consume_encodeSse hne hlf hcr, consume_stream events hrest]
    rfl

/-- Chunks are read as the text they are cut from. -/
theorem pushAll_eq (p : SseParser) (chunks : List JsString) : p.pushAll chunks =
    ((Text.feedChunks (unit '\n') consumeLine p.fields p.buffer chunks).1,
      ⟨(Text.feedChunks (unit '\n') consumeLine p.fields p.buffer chunks).2.2,
        (Text.feedChunks (unit '\n') consumeLine p.fields p.buffer chunks).2.1⟩) := by
  induction chunks generalizing p with
  | nil => rfl
  | cons chunk chunks ih =>
    rw [SseParser.pushAll]
    simp only [ih]
    rfl

end Streams

/-- **A stream of events is read back**, however it is cut into chunks, and nothing is left to flush. -/
theorem sse_roundTrip (events : List (String × List (String × JsonValue))) (chunks : List JsString)
    (hevents : ∀ e ∈ events, e.1 ≠ "" ∧ '\n' ∉ e.1.toList ∧ '\r' ∉ e.1.toList)
    (hchunks : chunks.flatten = events.flatMap fun e => js (encodeSse e.1 e.2)) :
    (createSseParser.pushAll chunks).1 =
        events.map (fun e => ⟨js e.1, js (jsonDumps (.object e.2)), none⟩) ∧
      (createSseParser.pushAll chunks).2.flush.1 = [] := by
  have hfeed : Text.feedChunks (unit '\n') consumeLine resetFields [] chunks =
      (events.map fun e => ⟨js e.1, js (jsonDumps (.object e.2)), none⟩, resetFields, []) := by
    rw [Text.feedChunks_eq chunks _ _ List.not_mem_nil, List.nil_append, hchunks]
    exact consume_stream events hevents
  rw [pushAll_eq, createSseParser]
  simp only [hfeed]
  exact ⟨trivial, rfl⟩

/-- A chunk may end within the name of a field. -/
theorem sse_roundTrip_cut :
    (createSseParser.pushAll [(js (encodeSse "token" [("content", .str "hi")])).take 3,
      (js (encodeSse "token" [("content", .str "hi")])).drop 3]).1 =
        [⟨js "token", js (jsonDumps (.object [("content", .str "hi")])), none⟩] ∧
      (createSseParser.pushAll [(js (encodeSse "token" [("content", .str "hi")])).take 3,
        (js (encodeSse "token" [("content", .str "hi")])).drop 3]).2.flush.1 = [] :=
  sse_roundTrip [("token", [("content", .str "hi")])] _ (by decide) (by simp)

end ParseSse

end DevOps
