import Mathlib
import WorkloadDrift.Files.Tree
import WorkloadDrift.Proofs.Json.Limits
import WorkloadDrift.Proofs.Text.Utf8
import WorkloadDrift.Snapshot.Load

/-!
# How loading ends

A load gives a snapshot or an error with the file's name, as long as the path can
be that of a file, the file is UTF-8 and no number in it is too long. What else
can be wrong with a file is reported in that one way.
-/
namespace WorkloadDrift

/-- A snapshot, or an error that says why the source holds none. -/
def LoadsOrRejects (source : String) (outcome : Except LoadFailure Workload) : Prop :=
  (∃ w, outcome = .ok w) ∨ ∃ rejection, outcome = .error (.rejected ⟨source, rejection⟩)

variable (source : String)

theorem loadsOrRejects_ofJson (document : Json) :
    LoadsOrRejects source ((Workload.ofJson source document).mapError .rejected) := by
  unfold Workload.ofJson
  split
  · next members =>
    cases hread : Workload.read members with
    | ok w => exact .inl ⟨w, rfl⟩
    | error e => exact .inr ⟨.misshapen e, rfl⟩
  · exact .inr ⟨_, rfl⟩

theorem loadsOrRejects_parseDocument_iff (text : List Char) :
    LoadsOrRejects source
        (parseDocument source text >>= fun v => (Workload.ofJson source v).mapError .rejected) ↔
      ∀ digits, Json.ofChars text ≠ .error (.oversizedInteger digits) := by
  unfold parseDocument
  split
  · next v htext =>
    have hdocument := loadsOrRejects_ofJson source v
    simpa [htext] using hdocument
  · next digits htext => simp [htext, LoadsOrRejects]
  · next e hnot htext => simpa [htext, LoadsOrRejects] using hnot

theorem loadsOrRejects_ofBytes_iff (bytes : List UInt8) :
    LoadsOrRejects source (Workload.ofBytes source bytes) ↔
      ∃ text : String, bytes = text.toUTF8.data.toList ∧
        ∀ digits, Json.ofChars (Text.unifyNewlines text.toList) ≠ .error (.oversizedInteger digits) := by
  simp only [← Utf8.decode_eq_ok_iff]
  cases hdecode : Utf8.decode bytes with
  | error fault => simp [Workload.ofBytes, decodeText, hdecode, LoadsOrRejects]
  | ok cs =>
    have hload : Workload.ofBytes source bytes =
        parseDocument source (Text.unifyNewlines cs) >>= fun v =>
          (Workload.ofJson source v).mapError .rejected := by
      simp only [Workload.ofBytes, decodeText, hdecode]
      rfl
    rw [hload, loadsOrRejects_parseDocument_iff]
    constructor
    · intro h
      exact ⟨String.ofList cs, by simp, by simpa using h⟩
    · rintro ⟨text, htext, h⟩
      rwa [Except.ok.inj htext]

/-- A load ends with a snapshot or with an error that names the file, unless the path has a NUL,
the file is not UTF-8, or an integer in it is too long; the last only where its digits run on beyond
the limit. -/
theorem loadsOrRejects_load_iff (files : Files) (path : String) :
    (LoadsOrRejects path (Workload.load files path) ↔
      '\x00' ∉ path.toList ∧ ∀ bytes, files.read path = .ok bytes →
        ∃ text : String, bytes = text.toUTF8.data.toList ∧
          ∀ digits, Json.ofChars (Text.unifyNewlines text.toList) ≠ .error (.oversizedInteger digits)) ∧
    ∀ text : List Char, (∀ digits, Json.ofChars text ≠ .error (.oversizedInteger digits)) ∨
      ∃ run, run <:+: text ∧ (∀ c ∈ run, c.isDigit) ∧ Decimal.digitLimit < run.length := by
  constructor
  · by_cases hnul : '\x00' ∈ path.toList
    · simp [Workload.load, hnul, LoadsOrRejects]
    · rw [Workload.load, if_neg hnul]
      cases hread : files.read path with
      | error fault => simp [hnul, LoadsOrRejects]
      | ok bytes =>
        have hbytes := loadsOrRejects_ofBytes_iff path bytes
        simpa [hnul] using hbytes
  · intro text
    by_cases hlong : ∃ digits, Json.ofChars text = .error (.oversizedInteger digits)
    · right
      obtain ⟨digits, hdigits⟩ := hlong
      obtain ⟨run, hrun, hall, rfl, hlimit⟩ := Json.exists_run_of_oversized hdigits
      exact ⟨run, hrun, hall, hlimit⟩
    · left
      simpa using hlong

/-- A file with a byte that begins no character, and a path that no file can have. -/
theorem load_not_loadsOrRejects :
    let files := (FileTree.directory [("a.json", .file [0x7b, 0x22, 0xff, 0x22, 0x7d])]).files
    ¬ LoadsOrRejects "a.json" (Workload.load files "a.json") ∧
      ¬ LoadsOrRejects "a.json\x00" (Workload.load files "a.json\x00") := by
  intro files
  have hundecodable : Workload.load files "a.json" =
      .error (.undecodable ⟨.startByte, 2, [0xff]⟩) := by cbv
  have hnul : Workload.load files "a.json\x00" = .error .nulInPath := by
    rw [Workload.load, if_pos (by decide)]
  simp [hundecodable, hnul, LoadsOrRejects]

end WorkloadDrift
