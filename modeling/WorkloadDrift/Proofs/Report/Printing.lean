import WorkloadDrift.Proofs.Json.Indented
import WorkloadDrift.Proofs.Report.Counts
import WorkloadDrift.Proofs.Snapshot.Reloading

/-!
# Printed reports

A report prints texts, levels and events. The numbers of an event came from a
snapshot that was read, so none of them is too long to be read again, and what is
printed is read back as the report.
-/
namespace WorkloadDrift

open Json (Legible)

/-! ## Events of a snapshot that was read -/

/-- What stands for an event in a document. -/
def Event.document : Event → Json
  | .file e => e.toJson
  | .network e => e.toJson

theorem legible_of_mem_events {α : Type} {encode : α → Json} {wrap : α → Event}
    (hwrap : ∀ a, (wrap a).document = encode a) {l : List (Option α)}
    (h : (Json.arr (l.map (nullable encode))).Legible) {e : Event} (he : some e ∈ l.map (·.map wrap)) :
    e.document.Legible := by
  obtain ⟨x, hx, he⟩ := List.mem_map.1 he
  obtain ⟨a, rfl, rfl⟩ := Option.map_eq_some_iff.1 he
  rw [hwrap]
  exact Json.legible_arr.1 h _ (List.mem_map.2 ⟨some a, hx, rfl⟩)

theorem Resource.legible_of_observes {r : Resource} (h : r.toJson.Legible) {e : Event}
    (he : r.Observes e) : e.document.Legible := by
  have hevents : r.events.toJson.Legible :=
    (Json.legible_obj.1 h).2 ("events", r.events.toJson) (by simp)
  have hlists := (Json.legible_obj.1 hevents).2
  simp only [List.forall_mem_cons, List.not_mem_nil, false_imp_iff, implies_true, and_true] at hlists
  obtain ⟨hfile, hprocess, hingress, hegress, hbind⟩ := hlists
  obtain ⟨category, -, he⟩ := he
  cases category with
  | file => exact legible_of_mem_events (fun _ => rfl) hfile he
  | process => exact legible_of_mem_events (fun _ => rfl) hprocess he
  | ingress => exact legible_of_mem_events (fun _ => rfl) hingress he
  | egress => exact legible_of_mem_events (fun _ => rfl) hegress he
  | bind => exact legible_of_mem_events (fun _ => rfl) hbind he

theorem Named.legible_of_observes {α : Type} {encode : α → Json} {observes : α → Event → Prop}
    (hinside : ∀ v, (encode v).Legible → ∀ e, observes v e → e.document.Legible) {m : Named α}
    (h : (m.toJson encode).Legible) {e : Event} (he : m.Observes observes e) :
    e.document.Legible := by
  obtain ⟨_, hv, he⟩ := he
  obtain ⟨entry, hentry, rfl⟩ := List.mem_map.1 hv
  exact hinside entry.2
    ((Json.legible_obj.1 h).2 (entry.1, encode entry.2) (List.mem_map.2 ⟨entry, hentry, rfl⟩)) e he

theorem Namespace.legible_of_observes {n : Namespace} (h : n.toJson.Legible) {e : Event}
    (he : n.Observes e) : e.document.Legible := by
  obtain ⟨kind, hkind, he⟩ := he
  have hofKind : ((n.ofKind kind).toJson Resource.toJson).Legible :=
    (Json.legible_obj.1 h).2 (kind.wireKey, _) (List.mem_map.2 ⟨kind, hkind, rfl⟩)
  exact Named.legible_of_observes (fun _ hr _ => Resource.legible_of_observes hr) hofKind he

theorem Cluster.legible_of_observes {c : Cluster} (h : c.toJson.Legible) {e : Event}
    (he : c.Observes e) : e.document.Legible := by
  have hnamespaces : (c.namespaces.toJson Namespace.toJson).Legible :=
    (Json.legible_obj.1 h).2 _ List.mem_cons_self
  exact Named.legible_of_observes (fun _ hn _ => Namespace.legible_of_observes hn) hnamespaces he

theorem Workload.legible_of_observes {w : Workload} (h : w.toJson.Legible) {e : Event}
    (he : w.Observes e) : e.document.Legible := by
  have hclusters : (w.clusters.toJson Cluster.toJson).Legible :=
    (Json.legible_obj.1 h).2 _ List.mem_cons_self
  exact Named.legible_of_observes (fun _ hc _ => Cluster.legible_of_observes hc) hclusters he

theorem legible_of_load {files : Files} {path : String} {w : Workload}
    (h : Workload.load files path = .ok w) : w.toJson.Legible :=
  ⟨Workload.faithful_toJson.floatFree w, Workload.faithful_toJson.distinctNames w,
    readableIntegers_of_load h⟩

/-! ## Nodes and trees -/

/-- A node whose level and events can be read back. -/
structure Node.Legible (n : Node) : Prop where
  level : Decimal.Readable n.level
  file : ∀ e, n.file = some e → e.toJson.Legible
  network : ∀ e, n.network = some e → e.toJson.Legible

theorem Node.Found.legible {observed : Event → Prop} {n : Node} (h : n.Found observed)
    (hobserved : ∀ e, observed e → e.document.Legible) : n.Legible where
  level := by
    have hle : n.level.natAbs ≤ 4 := by
      have hlevel : 0 ≤ n.level ∧ n.level ≤ 4 := h.level
      omega
    have hten : 10 ^ 1 ≤ 10 ^ Decimal.digitLimit := Nat.pow_le_pow_right (by decide) (by decide)
    exact Nat.lt_of_lt_of_le (by omega) hten
  file e he := hobserved _ (h.file e he)
  network e he := hobserved _ (h.network e he)

theorem Node.Legible.cancelIf {n : Node} (h : n.Legible) (p : String → Bool) :
    (n.cancelIf p).Legible := by
  rcases n.cancelIf_eq_or p with heq | heq
  · rwa [heq]
  · rw [heq]
    exact ⟨h.level, h.file, h.network⟩

theorem legible_valuesOrNull (values : List String) : (valuesOrNull values).Legible := by
  unfold valuesOrNull
  split
  · exact Json.legible_null
  · rw [Json.legible_arr, List.forall_mem_map]
    exact fun v _ => Json.legible_str v

theorem Change.legible_toJson (c : Change) : c.toJson.Legible := by
  refine Json.legible_obj.2 ⟨by simp, ?_⟩
  simp only [List.forall_mem_cons, List.not_mem_nil, false_imp_iff, implies_true, and_true]
  exact ⟨legible_valuesOrNull _, legible_valuesOrNull _, legible_valuesOrNull _, Json.legible_str _,
    Json.legible_str _, Json.legible_bool _⟩

theorem legible_getD_null {α : Type} {encode : α → Json} {x : Option α}
    (h : ∀ a, x = some a → (encode a).Legible) : ((x.map encode).getD .null).Legible := by
  cases x with
  | none => exact Json.legible_null
  | some a => exact h a rfl

theorem ChangeTree.legible_toJson {root : Node} {children : List ChangeTree} (hroot : root.Legible)
    (hchildren : ∀ v ∈ listToJson children, v.Legible) : (node root children).toJson.Legible := by
  rw [toJson]
  refine Json.legible_obj.2 ⟨by simp, ?_⟩
  simp only [List.forall_mem_cons, List.not_mem_nil, false_imp_iff, implies_true, and_true]
  refine ⟨Json.legible_str _, Json.legible_str _, Json.legible_int.2 hroot.level,
    Json.legible_str _, legible_getD_null hroot.network, legible_getD_null hroot.file,
    root.change.legible_toJson, ?_⟩
  split
  · exact Json.legible_null
  · exact Json.legible_arr.2 hchildren

/-- The trees that grow out of legible nodes are legible, and so is the stock that is left. -/
theorem legible_grow (stock : List Node) (hashes : List String) (hstock : ∀ n ∈ stock, n.Legible) :
    (∀ v ∈ ChangeTree.listToJson (grow stock hashes).1, v.Legible) ∧
      ∀ n ∈ (grow stock hashes).2.1, n.Legible := by
  induction stock, hashes using grow.induct with
  | case1 stock =>
    rw [grow]
    exact ⟨by simp [ChangeTree.listToJson], hstock⟩
  | case2 stock h hashes hnone ih =>
    rw [grow_of_missing hnone]
    exact ih hstock
  | case3 stock h hashes n hsome children rest hrest hchildren siblings left hleft hsiblings ihBelow
      ihRest =>
    rw [(grow_of_found hsome).1, (grow_of_found hsome).2]
    -- The siblings grow out of what the children leave of the stock.
    have hbelow := ihBelow fun m hm => hstock m (mem_without.1 hm).1
    rw [hchildren] at hbelow ⊢
    obtain ⟨hbehind, hleftLegible⟩ := ihRest hbelow.2
    refine ⟨?_, hleftLegible⟩
    rw [ChangeTree.listToJson, List.forall_mem_cons]
    exact ⟨ChangeTree.legible_toJson (hstock n (List.mem_of_find?_eq_some hsome)) hbelow.1, hbehind⟩

theorem ChangeGraph.legible_render {g : ChangeGraph} (hg : ∀ n ∈ g.nodes, n.Legible) {n : Node}
    (hn : n ∈ g.nodes) : (g.render n).Legible :=
  ChangeTree.legible_toJson (hg n hn)
    (legible_grow _ _ fun m hm => hg m (mem_without.1 hm).1).1

/-! ## Reports -/

theorem Report.legible_toJson (digest : Digest) {latest baseline : Workload}
    (hlatest : latest.toJson.Legible) (hbaseline : baseline.toJson.Legible)
    (criteria : Option Criteria) (includeCanceled : Bool) :
    ((build digest latest baseline criteria).toJson includeCanceled).Legible := by
  have hnodes : ∀ n ∈ (build digest latest baseline criteria).graph.nodes, n.Legible := by
    rw [graph_build, Pass.runAll_eq, ChangeGraph.nodes_cancel, List.forall_mem_map]
    intro n hn
    refine ((found_difference digest latest baseline n hn).legible fun e he => ?_).cancelIf _
    exact he.elim (Workload.legible_of_observes hlatest) (Workload.legible_of_observes hbaseline)
  rw [toJson, Json.legible_arr, List.forall_mem_map]
  intro n hn
  have hleaf : n ∈ (build digest latest baseline criteria).leaves :=
    List.mem_of_mem_filter ((perm_entries _ includeCanceled).mem_iff.1 hn)
  exact ChangeGraph.legible_render hnodes (mem_of_mem_visit (List.mem_of_mem_filter hleaf))

/-- The report on two snapshots that were loaded, printed with indentation, is ASCII and is read back
as the same value, whatever texts and numbers the snapshots hold. -/
theorem parse_printed_report {files files' : Files} {path path' : String} {latest baseline : Workload}
    (hlatest : Workload.load files path = .ok latest)
    (hbaseline : Workload.load files' path' = .ok baseline) (digest : Digest)
    (criteria : Option Criteria) (includeCanceled : Bool) :
    let printed := ((Report.build digest latest baseline criteria).toJson includeCanceled).pretty
    (∀ c ∈ printed.toList, c.toNat < 128) ∧
      Json.parse printed =
        .ok ((Report.build digest latest baseline criteria).toJson includeCanceled) := by
  have legible := Report.legible_toJson digest (legible_of_load hlatest) (legible_of_load hbaseline)
    criteria includeCanceled
  refine ⟨?_, Json.parse_pretty legible⟩
  rw [Json.pretty, String.toList_ofList]
  exact Json.ascii_indented legible.floatFree 0

set_option maxRecDepth 4000 in
/-- The source of an access changes from a control character to one beyond the basic plane. -/
theorem parse_printed_report_running :
    let latest := Workload.running (.accessing [some (.copying "𝄞" "")])
    let baseline := Workload.running (.accessing [some (.copying "\x01" "")])
    let files := (FileTree.directory [
      ("a.json", .file latest.toJson.canonical.toUTF8.data.toList),
      ("b.json", .file baseline.toJson.canonical.toUTF8.data.toList)]).files
    let report := (Report.build Sha256.hexDigest latest baseline none).toJson true
    Workload.load files "a.json" = .ok latest ∧ Workload.load files "b.json" = .ok baseline ∧
      (∀ c ∈ report.pretty.toList, c.toNat < 128) ∧ Json.parse report.pretty = .ok report := by
  intro latest baseline files report
  have readable (source : String) :
      (Workload.running (.accessing [some (.copying source "")])).toJson.ReadableIntegers := by
    simp [Workload.running, Resource.accessing, FileEvent.copying, Named.insert, Named.empty,
      insertNamed, Workload.toJson, Cluster.toJson, Namespace.toJson, Resource.toJson,
      EventLists.toJson, FileEvent.toJson, Container.toJson, Named.toJson, nullable,
      ResourceKind.all, Namespace.ofKind, Decimal.readable_zero]
  have hlatest : Workload.load files "a.json" = .ok latest :=
    Workload.ofBytes_canonical (readable _) "a.json"
  have hbaseline : Workload.load files "b.json" = .ok baseline :=
    Workload.ofBytes_canonical (readable _) "b.json"
  exact ⟨hlatest, hbaseline, parse_printed_report hlatest hbaseline Sha256.hexDigest none true⟩

end WorkloadDrift
