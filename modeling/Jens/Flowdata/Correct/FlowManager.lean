import Jens.Flowdata.FlowManager
import Jens.Lib.Keyed
import Jens.Lib.Modify
import Jens.Lib.Outcome

/-!
# The flows of a manager and their data points

Two flows are equal for `Equals` when they have the same ends.  `Append` is the only function that
changes the ends in the list, and `modify` changes the data points of one flow and nothing else.

`FlowDatapointsT.Holds` says that the columns are those of a list of data points;
`FlowDatapointsT.Writing` says so of columns to which an append is adding one.
-/

namespace Jens

/-- The ends of a flow. -/
def FlowT.ends (f : FlowT) : NetEndPoint × NetEndPoint := (f.src, f.dst)

theorem FlowT.equals_iff {v f : FlowT} : v.equals f = true ↔ v.ends = f.ends := by
  simp [equals, NetEndPoint.equals, ends, NetEndPoint.ext_iff]

/-- A new flow has no data. -/
theorem d_of_newFlow {src dst prio : String} {f : FlowT} (h : newFlow src dst prio = .ok f) :
    f.d = newFlowDataPoints := by
  rw [newFlow] at h
  obtain ⟨src, -, h⟩ := Except.bind_eq_ok.mp h
  obtain ⟨dst, -, h⟩ := Except.bind_eq_ok.mp h
  obtain ⟨s, -, h⟩ := Except.bind_eq_ok.mp h
  obtain ⟨t, -, h⟩ := Except.bind_eq_ok.mp h
  rw [← Except.ok.inj h]

theorem d_of_parseLine {os : Os} {line : String} {f : FlowT} {x : DataPoint}
    (h : parseLine os line = .ok (.measurement f x)) : f.d = newFlowDataPoints := by
  unfold parseLine at h
  split_ifs at h
  · cases h
  · split at h
    case h_2 => cases h
    split at h
    case h_2 => cases h
    obtain ⟨f', hf', h⟩ := Except.bind_eq_ok.mp h
    injection h with h
    injection h with hf
    rw [← hf]
    exact d_of_newFlow hf'

namespace FlowManager

variable {man : FlowManager} {f : FlowT}

/-- The ends of the flows. -/
def ends (man : FlowManager) : List (NetEndPoint × NetEndPoint) := man.flows.map FlowT.ends

theorem contains_iff : man.contains f = true ↔ f.ends ∈ man.ends := by
  simp [contains, ends, FlowT.equals_iff]

/-- `get` finds a flow with the same ends, if there is one. -/
theorem get_of_mem (h : f.ends ∈ man.ends) :
    ∃ i v, man.get f = some i ∧ man.flows[i]? = some v ∧ v.ends = f.ends := by
  have hsome : (man.get f).isSome = true := by
    rw [get, List.findIdx?_isSome]
    exact contains_iff.mpr h
  obtain ⟨i, hi⟩ := Option.isSome_iff_exists.mp hsome
  obtain ⟨hlt, heq, -⟩ := List.findIdx?_eq_some_iff_getElem.mp hi
  exact ⟨i, man.flows[i], hi, List.getElem?_eq_getElem hlt, FlowT.equals_iff.mp heq⟩

theorem ends_append (man : FlowManager) (f : FlowT) : (man.append f).ends = man.ends ++ [f.ends] :=
  List.map_append

theorem getElem?_ends {i : ℕ} {v : FlowT} (hv : man.flows[i]? = some v) :
    man.ends[i]? = some v.ends := by
  rw [ends, List.getElem?_map, hv]
  rfl

/-- A flow is at one place only. -/
theorem eq_of_ends_eq (hu : UniqueBy FlowT.ends man.flows) {i k : ℕ} {v u : FlowT}
    (hv : man.flows[i]? = some v) (hk : man.flows[k]? = some u) (h : v.ends = u.ends) : i = k := by
  have hi := getElem?_ends hv
  have hsame : man.ends[i]? = man.ends[k]? := by rw [hi, getElem?_ends hk, h]
  exact (List.getElem?_inj (List.getElem?_eq_some_iff.mp hi).1 hu).mp hsame

/-! ### A change of one flow's data -/

variable {i j : ℕ} {g : FlowDatapointsT → FlowDatapointsT}

@[simp] theorem length_flows_modify : (man.modify i g).flows.length = man.flows.length :=
  List.length_modify ..

/-- What does not look at the data stays. -/
theorem map_modify {β : Type} {proj : FlowT → β} (h : ∀ v d, proj { v with d := d } = proj v) :
    (man.modify i g).flows.map proj = man.flows.map proj :=
  List.map_modify_of_eq (fun v => h v (g v.d)) man.flows i

@[simp] theorem ends_modify : (man.modify i g).ends = man.ends :=
  map_modify fun _ _ => rfl

theorem getElem?_modify_self {v : FlowT} (h : man.flows[i]? = some v) :
    (man.modify i g).flows[i]? = some { v with d := g v.d } := by
  simp [modify, h]

theorem getElem?_modify_of_ne (h : i ≠ j) : (man.modify i g).flows[j]? = man.flows[j]? := by
  simp [modify, h]

/-- A flow after the change and before. -/
theorem exists_of_mem_modify {u : FlowT} (h : u ∈ (man.modify i g).flows) :
    ∃ v ∈ man.flows, u = v ∨ u = { v with d := g v.d } := by
  obtain ⟨j, hj⟩ := List.mem_iff_getElem?.mp h
  have hlt : j < man.flows.length := by
    have hlt := (List.getElem?_eq_some_iff.mp hj).1
    rwa [length_flows_modify] at hlt
  have hv := List.getElem?_eq_getElem hlt
  refine ⟨man.flows[j], List.getElem_mem hlt, ?_⟩
  by_cases hij : i = j
  · rw [hij, getElem?_modify_self hv] at hj
    exact .inr (Option.some.inj hj).symm
  · rw [getElem?_modify_of_ne hij, hv] at hj
    exact .inl (Option.some.inj hj).symm

/-- A flow after the change: the one that was changed, or another one. -/
theorem mem_modify (hu : UniqueBy FlowT.ends man.flows) {v u : FlowT} (hv : man.flows[i]? = some v)
    (h : u ∈ (man.modify i g).flows) :
    u = { v with d := g v.d } ∨ u ∈ man.flows ∧ u.ends ≠ v.ends := by
  obtain ⟨j, hj⟩ := List.mem_iff_getElem?.mp h
  by_cases hij : i = j
  · rw [← hij, getElem?_modify_self hv] at hj
    exact .inl (Option.some.inj hj).symm
  · rw [getElem?_modify_of_ne hij] at hj
    exact .inr ⟨List.mem_of_getElem? hj, fun heq => hij (eq_of_ends_eq hu hv hj heq.symm)⟩

end FlowManager

/-! ### Columns -/

namespace FlowDatapointsT

/-- The columns are those of `ps`. -/
structure Holds (d : FlowDatapointsT) (ps : List DataPoint) : Prop where
  timeStamp : d.timeStamp = ps.map DataPoint.ts
  sojourn : d.sojourn = ps.map DataPoint.sj
  load : d.load = ps.map DataPoint.ld
  ecn : d.ecn = ps.map DataPoint.ec
  dropp : d.dropp = ps.map DataPoint.dr
  delay : d.delay.length = ps.length
  capacity : d.capacity = ps.map DataPoint.cap

theorem holds_new : newFlowDataPoints.Holds [] := ⟨rfl, rfl, rfl, rfl, rfl, rfl, rfl⟩

/-- All columns have one length. -/
def InSync (d : FlowDatapointsT) : Prop :=
  ∀ column ∈ [d.sojourn, d.load, d.ecn, d.dropp, d.delay, d.capacity],
    column.length = d.timeStamp.length

theorem inSync_iff {d : FlowDatapointsT} : d.InSync ↔
    d.sojourn.length = d.timeStamp.length ∧ d.load.length = d.timeStamp.length ∧
      d.ecn.length = d.timeStamp.length ∧ d.dropp.length = d.timeStamp.length ∧
      d.delay.length = d.timeStamp.length ∧ d.capacity.length = d.timeStamp.length := by
  simp [InSync]

theorem Holds.inSync {d : FlowDatapointsT} {ps : List DataPoint} (h : d.Holds ps) : d.InSync := by
  simp [InSync, h.timeStamp, h.sojourn, h.load, h.ecn, h.dropp, h.delay, h.capacity]

/-- The points of the column that `stmt` writes, when the statements in `rest` are still to come. -/
def written (ps : List DataPoint) (x : DataPoint) (rest : List AppendStmt) (stmt : AppendStmt) :
    List DataPoint := if stmt ∈ rest then ps else ps ++ [x]

/-- The columns are those of `ps`, and `x` is being added: the statements in `rest` are still to
come. -/
structure Writing (d : FlowDatapointsT) (ps : List DataPoint) (x : DataPoint)
    (rest : List AppendStmt) : Prop where
  timeStamp : d.timeStamp = (written ps x rest .timeStamp).map DataPoint.ts
  sojourn : d.sojourn = (written ps x rest .sojourn).map DataPoint.sj
  load : d.load = (written ps x rest .load).map DataPoint.ld
  ecn : d.ecn = (written ps x rest .ecn).map DataPoint.ec
  dropp : d.dropp = (written ps x rest .dropp).map DataPoint.dr
  delay : d.delay.length = (written ps x rest .delay).length
  capacity : d.capacity = (written ps x rest .capacity).map DataPoint.cap

variable {d : FlowDatapointsT} {ps : List DataPoint} {x : DataPoint}

/-- Before the first statement. -/
theorem Holds.writing (h : d.Holds ps) : d.Writing ps x appendBody :=
  ⟨h.timeStamp, h.sojourn, h.load, h.ecn, h.dropp, h.delay, h.capacity⟩

/-- After the last one. -/
theorem Writing.holds (h : d.Writing ps x []) : d.Holds (ps ++ [x]) :=
  ⟨h.timeStamp, h.sojourn, h.load, h.ecn, h.dropp, h.delay, h.capacity⟩

/-- One statement. -/
theorem Writing.exec {cv : F64 → Int64} {now : Int64} {stmt : AppendStmt} {rest : List AppendStmt}
    (h : d.Writing ps x (stmt :: rest)) (hstmt : stmt ∉ rest) :
    (FlowDatapointsT.exec cv now x d stmt).Writing ps x rest := by
  obtain ⟨hts, hsj, hld, hec, hdr, hde, hcap⟩ := h
  simp only [written, List.mem_cons] at hts hsj hld hec hdr hde hcap
  cases stmt <;> simp only [FlowDatapointsT.exec]
  case hasLoad =>
    split_ifs <;> constructor <;> simp_all [written]
  all_goals
    constructor <;> simp_all [written]

/-- `Append` adds its data point. -/
theorem Holds.append (h : d.Holds ps) (cv : F64 → Int64) (now : Int64) (x : DataPoint) :
    (d.append cv now x).Holds (ps ++ [x]) := by
  have hbody (rest : List AppendStmt) : ∀ d : FlowDatapointsT, rest.Nodup → d.Writing ps x rest →
      (rest.foldl (FlowDatapointsT.exec cv now x) d).Writing ps x [] := by
    induction rest with
    | nil => exact fun d _ hd => hd
    | cons stmt rest ih =>
      intro d hnodup hd
      obtain ⟨hstmt, hnodup⟩ := List.nodup_cons.mp hnodup
      exact ih _ hnodup (hd.exec hstmt)
  exact (hbody appendBody d (by decide) h.writing).holds

@[simp] theorem mutex_exec (cv : F64 → Int64) (now : Int64) (stmt : AppendStmt) :
    (FlowDatapointsT.exec cv now x d stmt).mutex = d.mutex := by
  cases stmt <;> simp only [FlowDatapointsT.exec]
  split_ifs <;> rfl

end FlowDatapointsT

end Jens
