import InertialRelay.Proofs.JsonGrammar
import InertialRelay.Proofs.JsonLines

/-!
# Lines that every reader takes

`Sink.jsonLines_standard_iff`: the line of a publication is an object of the standard grammar as long as all floats of
the record are finite. A record with a NaN or an infinity has a line that is no JSON at all.
-/

namespace InertialRelay.Sink

open Text

theorem reals_text (o : Output) :
    (∀ x ∈ Data.realsOfEntries [("topic", .str o.topic), ("record", o.record.toData)], x.isFinite = true) ↔
      ∀ x ∈ o.record.toData.reals, x.isFinite = true := by
  simp [Data.realsOfEntries, Data.reals]

/-- Each publication adds one line, whatever the topic and the record are. The line is an object of the standard
grammar, or any text of it, exactly if the record has no NaN and no infinity. -/
theorem jsonLines_standard_iff (o : Output) :
    ∃ t : String, (∀ s, jsonLines.publish o s = ⟨s ++ (t ++ "\n"), [], none⟩) ∧ '\n' ∉ t.toList ∧
      (Json.Derives .object t.toList ↔ ∀ x ∈ o.record.toData.reals, x.isFinite = true) ∧
      (Json.Derives .element t.toList ↔ ∀ x ∈ o.record.toData.reals, x.isFinite = true) := by
  have htext : (text o).toList = Json.Write.value (.map [("topic", .str o.topic), ("record", o.record.toData)]) := by
    rw [text, Json.write, String.toList_ofList]
  refine ⟨text o, fun _ => rfl, feed_not_mem_text o, ?_, ?_⟩
  · rw [htext, Json.derives_map_iff, reals_text]
  · rw [htext, Json.derives_write_iff]
    exact reals_text o

/-- A temperature that is not a number makes a line that no production of the grammar gives. -/
theorem jsonLines_nan_not_standard :
    let o : Output := ⟨"imu/temperature", .temperature ⟨⟨1, "base_link"⟩, .ofBits 0x7ff8000000000000, 0⟩⟩
    ∃ t, (jsonLines.publish o "").state = t ++ "\n" ∧
      t = "\x7b\"topic\":\"imu/temperature\",\"record\":\x7b\"header\":\x7b\"stamp\":1.0," ++
        "\"frame_id\":\"base_link\"\x7d,\"temperature\":NaN,\"variance\":0.0\x7d\x7d" ∧
      ¬Json.Derives .object t.toList ∧ ¬Json.Derives .element t.toList := by
  intro o
  have ht : text o = "\x7b\"topic\":\"imu/temperature\",\"record\":\x7b\"header\":\x7b\"stamp\":1.0," ++
      "\"frame_id\":\"base_link\"\x7d,\"temperature\":NaN,\"variance\":0.0\x7d\x7d" := by decide +kernel
  have hscan : Json.scan .outside (text o).toList = none := by decide +kernel
  have hline : (jsonLines.publish o "").state = text o ++ "\n" := String.empty_append
  exact ⟨text o, hline, ht, Json.not_derives_of_scan hscan, Json.not_derives_of_scan hscan⟩

end InertialRelay.Sink
