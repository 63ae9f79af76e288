import Mathlib
import WorkloadDrift.Files.Tree
import WorkloadDrift.Proofs.Json.Reading
import WorkloadDrift.Proofs.Snapshot.Bounds
import WorkloadDrift.Proofs.Text.Utf8
import WorkloadDrift.Snapshot.Load

/-!
# Saving and loading again

The canonical text of a snapshot that was loaded, written to a file, loads as that
snapshot: no character of it is changed on the way, it is read back as the document
with its members sorted, and the document gives the snapshot.
-/
namespace WorkloadDrift

theorem Workload.ofJson_of_sameValue {w : Workload} {v : Json} (h : Json.SameValue w.toJson v)
    (distinct : v.DistinctNames) (source : String) : Workload.ofJson source v = .ok w := by
  obtain ⟨members, rfl, hread⟩ := Json.readsBack_workload w v h distinct
  rw [Workload.ofJson, hread]
  rfl

theorem readableIntegers_of_load {files : Files} {path : String} {w : Workload}
    (h : Workload.load files path = .ok w) : w.toJson.ReadableIntegers := by
  obtain ⟨bytes, hbytes⟩ : ∃ bytes, Workload.ofBytes path bytes = .ok w := by
    unfold Workload.load at h
    split at h
    · cases h
    · split at h
      · next bytes _ => exact ⟨bytes, h⟩
      · cases h
  obtain ⟨text, -, hload⟩ := Except.bind_eq_ok_iff.1 hbytes
  obtain ⟨document, hparse, hread⟩ := Except.bind_eq_ok_iff.1 hload
  have hdocument : Json.ofChars text = .ok document := by
    unfold parseDocument at hparse
    split at hparse
    · next hparsed => rw [hparsed, Except.ok.inj hparse]
    all_goals cases hparse
  have readable := Json.readableIntegers_of_ofChars hdocument
  have hworkload := Except.mapError_eq_ok_iff.1 hread
  cases document with
  | obj members =>
    exact readsReadable_workload members w (Json.readableIntegers_obj.1 readable)
      (Except.mapError_eq_ok_iff.1 hworkload)
  | null | bool | int | float | str | arr => cases hworkload

theorem Workload.ofBytes_canonical {w : Workload} (readable : w.toJson.ReadableIntegers)
    (source : String) :
    Workload.ofBytes source w.toJson.canonical.toUTF8.data.toList = .ok w := by
  have floatFree := Json.floatFree_sorted (Workload.faithful_toJson.floatFree w)
  have distinct := Json.distinctNames_sorted (Workload.faithful_toJson.distinctNames w)
  have hdecode : decodeText w.toJson.canonical.toUTF8.data.toList =
      .ok w.toJson.canonical.toList := by
    rw [decodeText, Utf8.decode_eq_ok_iff.2 rfl, Json.canonical, String.toList_ofList]
    exact congrArg Except.ok (Text.unifyNewlines_of_not_mem (Json.return_notMem_compact floatFree))
  have hparse : parseDocument source w.toJson.canonical.toList = .ok w.toJson.sorted := by
    rw [parseDocument, Json.canonical, String.toList_ofList,
      Json.ofChars_compact ⟨floatFree, distinct, Json.readableIntegers_sorted readable⟩]
  have hread : Workload.ofJson source w.toJson.sorted = .ok w :=
    Workload.ofJson_of_sameValue (Json.sameValue_sorted _) distinct source
  exact Except.bind_eq_ok_iff.2 ⟨_, hdecode, Except.bind_eq_ok_iff.2 ⟨_, hparse,
    Except.mapError_eq_ok_iff.2 hread⟩⟩

/-- A snapshot that was loaded has a canonical text, and any file with that text in UTF-8 loads as
the same snapshot; so does its document by itself. -/
theorem load_saved {files : Files} {path : String} {w : Workload}
    (h : Workload.load files path = .ok w) :
    ∃ text, w.toJson.canonical? = .ok text ∧
      (∀ (saved : Files) (place : String), '\x00' ∉ place.toList →
        saved.read place = .ok text.toUTF8.data.toList → Workload.load saved place = .ok w) ∧
      ∀ source, Workload.ofJson source w.toJson = .ok w := by
  have floatFree := Workload.faithful_toJson.floatFree w
  have distinct := Workload.faithful_toJson.distinctNames w
  refine ⟨w.toJson.canonical, ?_, fun saved place hplace hread => ?_, fun source => ?_⟩
  · rw [Json.canonical?, if_pos (Json.isFinite_of_floatFree floatFree)]
  · rw [Workload.load, if_neg hplace, hread]
    exact Workload.ofBytes_canonical (readableIntegers_of_load h) place
  · exact Workload.ofJson_of_sameValue ((Json.sorted_eq_iff distinct).1 rfl) distinct source

/-- The events of one job, with an empty entry, a quoted count, a carriage return in a text and
another one at the end of a line. -/
def jobDocument : String :=
  "\x7b\"clusters\": \x7b\"c\": \x7b\"namespaces\": \x7b\"é\": \x7b\"jobs\": \x7b\"j\":\r\n" ++
    "\x7b\"events\": \x7b\"file\": [null, \x7b\"pod\": \"\\r\", \"count\": \" 1_2 \"\x7d], " ++
    "\"bind\": [\x7b\"cpResource\": \x7b\x7d\x7d]\x7d\x7d\x7d\x7d\x7d\x7d\x7d\x7d"

def jobSnapshot : Workload :=
  let access : FileEvent := ⟨"\r", ⟨"", ""⟩, "", "", 12, 0⟩
  let listening : NetworkEvent := ⟨"", ⟨"", ""⟩, "", "", 0, "", "", "", some ⟨"", ""⟩, 0, 0⟩
  let job : Resource := ⟨"", [none, some access], [], [], [], [some listening]⟩
  ⟨Named.empty.insert "c" ⟨Named.empty.insert "é"
    ⟨.empty, .empty, .empty, .empty, Named.empty.insert "j" job, .empty⟩⟩⟩

set_option maxRecDepth 10000 in
theorem load_saved_job :
    let files := (FileTree.directory [("a.json", .file jobDocument.toUTF8.data.toList)]).files
    Workload.load files "a.json" = .ok jobSnapshot ∧
      ∃ text, jobSnapshot.toJson.canonical? = .ok text ∧
        let saved := (FileTree.directory [("b.json", .file text.toUTF8.data.toList)]).files
        Workload.load saved "b.json" = .ok jobSnapshot := by
  intro files
  have hload : Workload.load files "a.json" = .ok jobSnapshot := by cbv
  obtain ⟨text, htext, hsaved, -⟩ := load_saved hload
  exact ⟨hload, text, htext, hsaved _ "b.json" (by decide) rfl⟩

end WorkloadDrift
