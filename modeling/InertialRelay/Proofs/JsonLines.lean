import InertialRelay.Proofs.JsonRoundTrip
import InertialRelay.Sink

/-!
# A stream of JSON lines

`Sink.jsonLines_read_back`: whatever is published, the stream is ASCII with one line feed for each publication,
at the end of what that publication wrote, and the lines read back, one by one, as the topics and the records.
-/

namespace InertialRelay

open Text

namespace Sink

/-- What a line says: the topic and then the record, whose fields come as they are declared. -/
def said (o : Output) : Data := .map [("topic", .str o.topic), ("record", o.record.toData.listed)]

/-- The pieces between line feeds, with what comes after the last of them. -/
def lines (stream : String) : List String := (stream.toList.splitOn '\n').map String.ofList

/-- `t` is all that a publication adds to a stream, but for the line feed, and it says what was published. -/
structure IsLine (o : Output) (t : String) : Prop where
  written : ∀ s, jsonLines.publish o s = ⟨s ++ (t ++ "\n"), [], none⟩
  whole : '\n' ∉ t.toList
  read : Json.read? t = some (said o)

/-- What a publication writes before the line feed. -/
def text (o : Output) : String := Json.write (.map [("topic", .str o.topic), ("record", o.record.toData)])

theorem shows_text (o : Output) : ∀ c ∈ (text o).toList, Json.Shows c := by
  rw [text, Json.write, String.toList_ofList]
  exact Json.shows_value _

theorem feed_not_mem_text (o : Output) : '\n' ∉ (text o).toList := fun h =>
  absurd (shows_text o '\n' h) (by decide)

theorem read?_text {o : Output} (hfin : ∀ x ∈ o.record.toData.reals, x.isFinite = true) :
    Json.read? (text o) = some (said o) := by
  refine Json.read?_write fun x hx => hfin x ?_
  simpa [Data.reals, Data.realsOfEntries] using hx

theorem isLine_text {o : Output} (hfin : ∀ x ∈ o.record.toData.reals, x.isFinite = true) :
    IsLine o (text o) where
  written _ := rfl
  whole := feed_not_mem_text o
  read := read?_text hfin

/-- The texts of a run, each with its line feed. -/
def stream (os : List Output) : String := String.join (os.map fun o => text o ++ "\n")

theorem publishAll_jsonLines (os : List Output) (s : String) :
    jsonLines.publishAll os s = ⟨s ++ stream os, [], none⟩ := by
  induction os generalizing s with
  | nil => exact congrArg (Reaction.mk · [] none) String.append_empty.symm
  | cons o os ih =>
    have hstep : jsonLines.publishAll (o :: os) s = jsonLines.publishAll os (s ++ (text o ++ "\n")) := by
      show Reaction.mk (jsonLines.publishAll os _).state ([] ++ (jsonLines.publishAll os _).log) _ = _
      rw [List.nil_append]
      rfl
    rw [hstep, ih, String.append_assoc, stream, stream, List.map_cons, String.join_cons]

theorem toList_stream (os : List Output) :
    (stream os).toList = (os.map fun o => (text o).toList).flatMap (· ++ ['\n']) := by
  rw [stream, String.toList_join, List.flatMap_map, List.flatMap_map]
  simp only [String.toList_append]
  rfl

/-- Pieces that hold no mark, each ended by one, are found again between the marks. -/
theorem splitOn_flatMap {x : Char} {ts : List (List Char)} (h : ∀ t ∈ ts, x ∉ t) :
    (ts.flatMap (· ++ [x])).splitOn x = ts ++ [[]] := by
  have hjoin : ∀ ts : List (List Char), [x].intercalate (ts ++ [[]]) = ts.flatMap (· ++ [x]) := by
    intro ts
    induction ts with
    | nil => rfl
    | cons t ts ih =>
      have hne : ts ++ [[]] ≠ [] := List.append_ne_nil_of_right_ne_nil ts (List.cons_ne_nil [] [])
      obtain ⟨u, us, hu⟩ := List.exists_cons_of_ne_nil hne
      rw [hu] at ih
      rw [List.cons_append, hu, List.intercalate_cons_cons, ih, List.flatMap_cons]
  rw [← hjoin, List.splitOn_intercalate x _ (by simp)]
  intro t ht
  rcases List.mem_append.1 ht with ht | ht
  · exact h t ht
  · rw [List.mem_singleton.1 ht]
    exact List.not_mem_nil

theorem lines_stream (os : List Output) : lines (stream os) = os.map text ++ [""] := by
  have hwhole : ∀ t ∈ os.map fun o => (text o).toList, '\n' ∉ t := by
    intro t ht
    obtain ⟨o, -, rfl⟩ := List.mem_map.1 ht
    exact feed_not_mem_text o
  rw [lines, toList_stream, splitOn_flatMap hwhole, List.map_append, List.map_map]
  simp [Function.comp_def]

theorem ascii_stream (os : List Output) : ∀ c ∈ (stream os).toList, c.toNat < 0x80 := by
  intro c hc
  rw [toList_stream] at hc
  simp only [List.mem_flatMap, List.mem_map, List.mem_append, List.mem_singleton] at hc
  obtain ⟨t, ⟨o, -, rfl⟩, hc | rfl⟩ := hc
  · obtain ⟨-, hhigh⟩ := shows_text o c hc
    omega
  · decide

theorem count_stream (os : List Output) : (stream os).toList.count '\n' = os.length := by
  have hone : ∀ o ∈ os, (List.count '\n' ∘ fun o => (text o).toList ++ ['\n']) o = 1 := by
    intro o _
    rw [Function.comp_apply, List.count_append, List.count_eq_zero.2 (feed_not_mem_text o)]
    rfl
  rw [toList_stream, List.flatMap_map, List.count_flatMap, List.map_congr_left hone]
  simp

theorem jsonLines_read_back (os : List Output)
    (hfin : ∀ o ∈ os, ∀ x ∈ o.record.toData.reals, x.isFinite = true) :
    ∃ stream, jsonLines.publishAll os "" = ⟨stream, [], none⟩ ∧ (∀ c ∈ stream.toList, c.toNat < 0x80) ∧
      stream.toList.count '\n' = os.length ∧
      ∃ texts, lines stream = texts ++ [""] ∧ List.Forall₂ IsLine os texts := by
  refine ⟨stream os, ?_, ascii_stream os, count_stream os, os.map text, lines_stream os, ?_⟩
  · rw [publishAll_jsonLines, String.empty_append]
  · rw [List.forall₂_map_right_iff, List.forall₂_same]
    exact fun o ho => isLine_text (hfin o ho)

/-- A frame may be named by a quote, a backslash, a line feed and a character beyond the first plane. -/
theorem jsonLines_read_back_odd_frame :
    let warm : Output := ⟨"imu/temp", .temperature ⟨⟨-1.5, "\"\\\n😀"⟩, 20, 0⟩⟩
    let low : Output := ⟨"imu/\n", .fluidPressure ⟨⟨0, ""⟩, 5e-324, 1e22⟩⟩
    (∀ o ∈ [warm, low], ∀ x ∈ o.record.toData.reals, x.isFinite = true) ∧
      ∃ t u, lines (jsonLines.publishAll [warm, low] "").state = [t, u, ""] ∧
        Json.read? t = some (.map [("topic", .str "imu/temp"), ("record", .map [
          ("header", .map [("stamp", .real (-1.5)), ("frame_id", .str "\"\\\n😀")]), ("temperature", .real 20),
          ("variance", .real 0)])]) ∧
        Json.read? u = some (.map [("topic", .str "imu/\n"), ("record", .map [
          ("header", .map [("stamp", .real 0), ("frame_id", .str "")]), ("fluid_pressure", .real 5e-324),
          ("variance", .real 1e22)])]) := by
  intro warm low
  have hfin : ∀ o ∈ [warm, low], ∀ x ∈ o.record.toData.reals, x.isFinite = true := by decide +kernel
  obtain ⟨stream, hrun, -, -, texts, hlines, hall⟩ := jsonLines_read_back [warm, low] hfin
  obtain ⟨t, _, ht, hrest, rfl⟩ := List.forall₂_cons_left_iff.1 hall
  obtain ⟨u, _, hu, hnil, rfl⟩ := List.forall₂_cons_left_iff.1 hrest
  obtain rfl := List.forall₂_nil_left_iff.1 hnil
  rw [hrun]
  exact ⟨hfin, t, u, hlines, ht.read, hu.read⟩

end Sink

end InertialRelay
