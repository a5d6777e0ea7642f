import Jens.Flowdata.Correct.FlowManager
import Jens.Flowdata.Eligibility

/-!
# The flows that are listed

The list of the eligible flows stands in the order of the flows, so it is the flows before the
selected one, the selected one if it is eligible, and the flows after it; the relative index and its
match type tell which of these three parts are empty (`Listed`).

The exemption of the selected flow is never made, as it is tied to there being none: an idle flow
leaves the list although it is selected (`selectedKept_iff`).
-/

namespace Jens

/-! ### The three parts of the list -/

section Parts

variable (eligible : ℕ → Bool) (sel : ℤ) (n : ℕ)

/-- The eligible flows of the first `n` that stand before the selected one. -/
def eligibleBelow : List ℕ := (List.range n).filter fun i => eligible i && decide (i < sel)

/-- The selected flow, if it is eligible. -/
def eligibleSelected : List ℕ := (List.range n).filter fun i => eligible i && decide (i = sel)

/-- The eligible flows that stand behind the selected one. -/
def eligibleAbove : List ℕ := (List.range n).filter fun i => eligible i && decide (sel < i)

/-- The place of the selected flow, by the flows below it, itself if it is listed, and the flows
above it. -/
def placeOf (below : List ℕ) : List ℕ → List ℕ → RelativeIndexOfSelected
  | _ :: _, _ => ⟨below.length, .exactMatch⟩
  | [], _ :: _ => ⟨below.length, .nextMatch⟩
  | [], [] => ⟨-1, .exactMatch⟩

variable {eligible sel n}

theorem eligibleBelow_succ :
    eligibleBelow eligible sel (n + 1) =
      eligibleBelow eligible sel n ++ if eligible n = true ∧ n < sel then [n] else [] := by
  rw [eligibleBelow, List.range_succ, List.filter_append, List.filter_singleton]
  simp [eligibleBelow]

theorem eligibleSelected_succ :
    eligibleSelected eligible sel (n + 1) =
      eligibleSelected eligible sel n ++ if eligible n = true ∧ n = sel then [n] else [] := by
  rw [eligibleSelected, List.range_succ, List.filter_append, List.filter_singleton]
  simp [eligibleSelected]

theorem eligibleAbove_succ :
    eligibleAbove eligible sel (n + 1) =
      eligibleAbove eligible sel n ++ if eligible n = true ∧ sel < n then [n] else [] := by
  rw [eligibleAbove, List.range_succ, List.filter_append, List.filter_singleton]
  simp [eligibleAbove]

/-- The selected flow has not been reached. -/
theorem eligibleSelected_eq_nil (h : n ≤ sel) : eligibleSelected eligible sel n = [] := by
  refine List.filter_eq_nil_iff.mpr fun i hi => ?_
  rw [List.mem_range] at hi
  simp only [Bool.and_eq_true, decide_eq_true_eq, not_and]
  omega

theorem eligibleAbove_eq_nil (h : n ≤ sel + 1) : eligibleAbove eligible sel n = [] := by
  refine List.filter_eq_nil_iff.mpr fun i hi => ?_
  rw [List.mem_range] at hi
  simp only [Bool.and_eq_true, decide_eq_true_eq, not_and]
  omega

theorem mem_eligibleBelow {i : ℕ} :
    i ∈ eligibleBelow eligible sel n ↔ i < n ∧ eligible i = true ∧ i < sel := by
  simp [eligibleBelow]

theorem mem_eligibleAbove {i : ℕ} :
    i ∈ eligibleAbove eligible sel n ↔ i < n ∧ eligible i = true ∧ sel < i := by
  simp [eligibleAbove]

theorem mem_eligibleSelected {i : ℕ} :
    i ∈ eligibleSelected eligible sel n ↔ i < n ∧ eligible i = true ∧ i = sel := by
  simp [eligibleSelected]

end Parts

/-! ### The loop -/

/-- What the loop has found in these flows. -/
structure Listed (eligible : ℕ → Bool) (sel : ℤ) (flows : List FlowT) (r : EligibleFlows) :
    Prop where
  absoluteIndexes : r.absoluteIndexes = eligibleBelow eligible sel flows.length ++
    eligibleSelected eligible sel flows.length ++ eligibleAbove eligible sel flows.length
  eligibleFlows : List.Forall₂ (fun f i => flows[i]? = some f) r.eligibleFlows r.absoluteIndexes
  relative : r.relativeIndexOfSelected = placeOf (eligibleBelow eligible sel flows.length)
    (eligibleSelected eligible sel flows.length) (eligibleAbove eligible sel flows.length)

namespace Listed

variable {eligible : ℕ → Bool} {sel : ℤ} {flows : List FlowT} {r : EligibleFlows}

theorem nil : Listed eligible sel [] ⟨⟨-1, .exactMatch⟩, [], []⟩ := ⟨rfl, .nil, rfl⟩

/-- The flows that were listed are still there. -/
theorem eligibleFlows_concat (h : Listed eligible sel flows r) (f : FlowT) :
    List.Forall₂ (fun g i => (flows ++ [f])[i]? = some g) r.eligibleFlows r.absoluteIndexes := by
  refine h.eligibleFlows.imp fun g i hg => ?_
  rw [List.getElem?_append_left (List.getElem?_eq_some_iff.mp hg).1, hg]

theorem skip (h : Listed eligible sel flows r) (f : FlowT) (hf : eligible flows.length = false) :
    Listed eligible sel (flows ++ [f]) r := by
  have hlen : (flows ++ [f]).length = flows.length + 1 := List.length_append
  refine ⟨?_, h.eligibleFlows_concat f, ?_⟩
  · rw [hlen, eligibleBelow_succ, eligibleSelected_succ, eligibleAbove_succ, hf]
    simpa using h.absoluteIndexes
  · rw [h.relative, hlen, eligibleBelow_succ, eligibleSelected_succ, eligibleAbove_succ, hf]
    simp

theorem visit (h : Listed eligible sel flows r) (f : FlowT) (hf : eligible flows.length = true) :
    Listed eligible sel (flows ++ [f]) (r.visit sel f flows.length) := by
  have hlen : (flows ++ [f]).length = flows.length + 1 := List.length_append
  have habs := h.absoluteIndexes
  have hrel := h.relative
  generalize hn : flows.length = n at *
  refine ⟨?_, ?_, ?_⟩
  · rw [hlen, eligibleBelow_succ, eligibleSelected_succ, eligibleAbove_succ, hf]
    rcases lt_trichotomy (n : ℤ) sel with hlt | heq | hgt
    · simp [EligibleFlows.visit, habs, hlt, hlt.ne, hlt.le.not_gt,
        eligibleSelected_eq_nil hlt.le, eligibleAbove_eq_nil (by omega : (n : ℤ) ≤ sel + 1)]
    · simp [EligibleFlows.visit, habs, heq, eligibleAbove_eq_nil (by omega : (n : ℤ) ≤ sel + 1)]
    · simp [EligibleFlows.visit, habs, hgt, hgt.ne', hgt.le.not_gt]
  · refine List.rel_append (h.eligibleFlows_concat f) (.cons ?_ .nil)
    rw [← hn]
    exact List.getElem?_concat_length
  · rw [hlen, eligibleBelow_succ, eligibleSelected_succ, eligibleAbove_succ, hf]
    rcases lt_trichotomy (n : ℤ) sel with hlt | heq | hgt
    · rw [eligibleSelected_eq_nil hlt.le, eligibleAbove_eq_nil (by omega)] at hrel ⊢
      simp [EligibleFlows.visit, hrel, placeOf, hlt.ne, hlt.le.not_gt]
    · -- the selected flow itself
      rw [eligibleSelected_eq_nil heq.le, eligibleAbove_eq_nil (by omega)] at hrel habs ⊢
      simp [EligibleFlows.visit, hrel, habs, placeOf, heq]
    · simp only [EligibleFlows.visit, habs, hrel, hgt, hgt.ne', hgt.le.not_gt, if_true, if_false,
        and_false, and_true, true_and, List.append_nil]
      cases eligibleSelected eligible sel n with
      | cons k rest => simp [placeOf]
      | nil =>
        cases eligibleAbove eligible sel n with
        | cons a rest => simp [placeOf]
        | nil => simp [placeOf]

end Listed

/-- The loop ends with the list of the eligible flows. -/
theorem foldlM_visit {test : ℕ → FlowT → Except Failure Bool} {eligible : ℕ → Bool} (sel : ℤ)
    (flows : List FlowT) (h : ∀ i f, flows[i]? = some f → test i f = .ok (eligible i)) :
    ∃ r, flows.zipIdx.foldlM (fun r flow => do
      if ← test flow.2 flow.1 then pure (EligibleFlows.visit sel r flow.1 flow.2) else pure r)
      ⟨⟨-1, .exactMatch⟩, [], []⟩ = .ok r ∧ Listed eligible sel flows r := by
  induction flows using List.reverseRecOn with
  | nil => exact ⟨_, rfl, .nil⟩
  | append_singleton flows f ih =>
    have hlast : test flows.length f = .ok (eligible flows.length) :=
      h _ _ List.getElem?_concat_length
    obtain ⟨r, hr, hlisted⟩ := ih fun i g hg =>
      h i g (by rw [List.getElem?_append_left (List.getElem?_eq_some_iff.mp hg).1, hg])
    rw [List.zipIdx_append, List.foldlM_append, hr, Nat.zero_add, List.zipIdx_singleton]
    cases heligible : eligible flows.length with
    | false =>
      refine ⟨r, ?_, hlisted.skip f heligible⟩
      simp only [List.foldlM_cons, List.foldlM_nil, hlast, heligible]
      rfl
    | true =>
      refine ⟨_, ?_, hlisted.visit f heligible⟩
      simp only [List.foldlM_cons, List.foldlM_nil, hlast, heligible]
      rfl

/-- **The list of the eligible flows**, if the test has an answer for each of the flows. -/
theorem FlowManager.eligibleFLows_eq_ok {test : ℕ → FlowT → Except Failure Bool}
    {eligible : ℕ → Bool} {man : FlowManager}
    (h : ∀ i f, man.flows[i]? = some f → test i f = .ok (eligible i)) :
    ∃ r, man.eligibleFLows test = .ok r ∧ Listed eligible man.selectedFlowIndex man.flows r :=
  foldlM_visit man.selectedFlowIndex man.flows h

/-! ### The test of the program -/

/-- The level for so many flows; as long as there are few, all are listed. -/
def FlowEligibility.level (cfg : FlowEligibility) (n : ℕ) : Option FlowEligibilityEntry :=
  if n < cfg.level0Until.toInt then none
  else if n < (cfg.level0Until + cfg.level1.additionalCount).toInt then some cfg.level1
  else if n < (cfg.level0Until + cfg.level1.additionalCount + cfg.level2.additionalCount).toInt then
    some cfg.level2
  else some cfg.level3

/-- A flow is long enough for a level, or empty, or has more than three data points and a recent
one. -/
def FlowEligibilityEntry.Passes (cfg : FlowEligibilityEntry) (now : Int64) (d : FlowDatapointsT) :
    Prop :=
  cfg.minimumFlowLength.toInt < d.timeStamp.length ∨ d.timeStamp = [] ∨
    3 < d.timeStamp.length ∧ ∃ ts, d.timeStamp.getLast? = some ts ∧
      F64.lt (.fin (now - cfg.timePastMaxInSec * 1000).toInt) ts = true

/-- The columns have one length, which is counted anew after each append. -/
structure FlowDatapointsT.Counted (d : FlowDatapointsT) : Prop where
  inSync : d.InSync
  kept : d.lengthStateId = 0 ∧ d.length = 0
  stateId : d.stateId = d.timeStamp.length

namespace FlowDatapointsT

theorem counted_new : newFlowDataPoints.Counted :=
  ⟨by simp [InSync, newFlowDataPoints], ⟨rfl, rfl⟩, rfl⟩

variable {d : FlowDatapointsT}

/-- An append leaves the columns so. -/
theorem Counted.append (h : d.Counted) (cv : F64 → Int64) (now : Int64) (x : DataPoint) :
    (d.append cv now x).Counted := by
  obtain ⟨hsojourn, hload, hecn, hdropp, hdelay, hcapacity⟩ := inSync_iff.mp h.inSync
  simp only [FlowDatapointsT.append, appendBody, List.foldl_cons, List.foldl_nil, exec]
  split_ifs
  all_goals
    refine ⟨?_, h.kept, ?_⟩
    · simp [InSync, hsojourn, hload, hecn, hdropp, hdelay, hcapacity]
    · simp [h.stateId]

theorem Counted.readLength (h : d.Counted) : d.readLength = .ok d.timeStamp.length := by
  obtain ⟨hsojourn, hload, hecn, hdropp, hdelay, hcapacity⟩ := inSync_iff.mp h.inSync
  rw [FlowDatapointsT.readLength, h.kept.1, h.kept.2, h.stateId]
  by_cases h0 : 0 = d.timeStamp.length
  · rw [if_pos h0, ← h0]
  · rw [if_neg h0, calcLength, if_pos]
    exact ⟨hsojourn.symm, hload.trans hecn.symm, hecn.trans hsojourn.symm,
      hsojourn.trans hdropp.symm, hdropp.trans hdelay.symm⟩

end FlowDatapointsT

/-- The columns of all flows are so. -/
def FlowManager.Counted (man : FlowManager) : Prop := ∀ f ∈ man.flows, f.d.Counted

namespace FlowManager

variable {man man' : FlowManager} {f : FlowT}

theorem Counted.append (h : man.Counted) (hf : f.d = newFlowDataPoints) :
    (man.append f).Counted := by
  intro g hg
  rcases List.mem_append.mp hg with hold | hnew
  · exact h g hold
  · obtain rfl := List.mem_singleton.mp hnew
    show f.d.Counted
    rw [hf]
    exact FlowDatapointsT.counted_new

theorem Counted.getAndAppendTo (h : man.Counted) {cv : F64 → Int64} {now : Int64} {x : DataPoint}
    (hok : man.getAndAppendTo cv now f x = .ok man') : man'.Counted := by
  rw [FlowManager.getAndAppendTo] at hok
  cases hget : man.get f with
  | none =>
    rw [hget] at hok
    cases hok
  | some i =>
    rw [hget] at hok
    obtain rfl := Except.ok.inj hok
    intro g hg
    obtain ⟨j, hj⟩ := List.mem_iff_getElem?.mp hg
    rw [modify, List.getElem?_modify] at hj
    obtain ⟨v, hv, rfl⟩ := Option.map_eq_some_iff.mp hj
    have hcounted := h v (List.mem_of_getElem? hv)
    split_ifs
    · exact hcounted.append cv now x
    · exact hcounted

theorem Counted.readSample (h : man.Counted) {os : Os} {cv : F64 → Int64} {now : Int64}
    {p : DbMeasurePacket} (hok : man.readSample os cv now p = .ok man') : man'.Counted := by
  obtain ⟨⟨b, man₁, started⟩, hread, hok⟩ := Except.bind_eq_ok.mp hok
  obtain ⟨parsed, hparse, hread⟩ := Except.bind_eq_ok.mp hread
  cases parsed with
  | returns b =>
    cases hread
    cases hok
    exact h
  | measurement f x =>
    cases hread
    refine Counted.getAndAppendTo ?_ hok
    split_ifs
    · exact h
    · exact h.append (d_of_parseLine hparse)

/-- **The columns are so after any samples.** -/
theorem counted_of_readSamples {os : Os} {cv : F64 → Int64}
    {samples : List (Int64 × DbMeasurePacket)}
    (h : samples.foldlM (fun man q => man.readSample os cv q.1 q.2) newFlowManager = .ok man) :
    man.Counted := by
  have hnew : newFlowManager.Counted := nofun
  exact Except.invariant_of_foldlM (fun _ _ _ _ hman hok => hman.readSample hok) hnew h

end FlowManager

theorem isFromLastNSecs_eq_ok {flow : FlowT} (h : flow.d.Counted) (now n : Int64) :
    ∃ b, isFromLastNSecsAndHasMoreThen3 now flow n = .ok b ∧
      (b = true ↔ flow.d.timeStamp = [] ∨ 3 < flow.d.timeStamp.length ∧
        ∃ ts, flow.d.timeStamp.getLast? = some ts ∧
          F64.lt (.fin (now - n * 1000).toInt) ts = true) := by
  rw [isFromLastNSecsAndHasMoreThen3, h.readLength]
  rcases List.eq_nil_or_concat' flow.d.timeStamp with hnil | ⟨init, ts, hts⟩
  · exact ⟨true, by rw [hnil]; rfl, by simp [hnil]⟩
  · have hlast : indexAt flow.d.timeStamp ((flow.d.timeStamp.length : ℤ) - 1) = .ok ts := by
      simp [indexAt, hts]
    refine ⟨F64.lt (.fin (now - n * 1000).toInt) ts && decide (3 < flow.d.timeStamp.length), ?_, ?_⟩
    · have hne : flow.d.timeStamp.length ≠ 0 := by simp [hts]
      refine Except.bind_eq_ok.mpr ⟨_, rfl, ?_⟩
      rw [if_neg hne, hlast]
      rfl
    · simp [hts, and_comm]

theorem FlowEligibilityEntry.check_eq_ok (cfg : FlowEligibilityEntry) {flow : FlowT}
    (h : flow.d.Counted) (now : Int64) :
    ∃ b, cfg.check now flow flow.d.timeStamp.length = .ok b ∧
      (b = true ↔ cfg.Passes now flow.d) := by
  rw [FlowEligibilityEntry.check]
  split_ifs with hlong
  · exact ⟨true, rfl, by simp [Passes, hlong]⟩
  · obtain ⟨b, hb, hiff⟩ := isFromLastNSecs_eq_ok h now cfg.timePastMaxInSec
    exact ⟨b, hb, by rw [hiff, Passes, or_iff_right hlong]⟩

namespace FlowManager

variable {man : FlowManager} {k : ℕ} {f : FlowT}

theorem getSelectedFlow_eq (hsel : man.selectedFlowIndex = k) (hf : man.flows[k]? = some f) :
    man.getSelectedFlow = .ok (some f, none) := by
  have hlt := (List.getElem?_eq_some_iff.mp hf).1
  rw [getSelectedFlow, hsel, if_neg (by omega), indexAt, if_neg (by omega), Int.toNat_natCast, hf]
  rfl

/-- **The test**, as long as a flow is selected: the flow that is selected is tested like any other.
-/
theorem isFlowEligible_eq_ok (cfg : FlowEligibility) (now : Int64)
    (hsel : man.selectedFlowIndex = k) (hf : man.flows[k]? = some f) {g : FlowT}
    (hg : g.d.Counted) :
    ∃ b, man.isFlowEligible cfg now g = .ok b ∧ (b = true ↔ g.d.hasLoadGreater1 = true ∧
      ∀ entry, cfg.level man.flows.length = some entry → entry.Passes now g.d) := by
  by_cases hload : g.d.hasLoadGreater1 = true
  · rw [isFlowEligible, if_neg (by simp [hload]), getSelectedFlow_eq hsel hf, hg.readLength,
      FlowEligibility.level]
    split_ifs
    · exact ⟨true, rfl, by simp [hload]⟩
    · obtain ⟨b, hb, hiff⟩ := cfg.level1.check_eq_ok hg now
      exact ⟨b, hb, by simp [hload, hiff]⟩
    · obtain ⟨b, hb, hiff⟩ := cfg.level2.check_eq_ok hg now
      exact ⟨b, hb, by simp [hload, hiff]⟩
    · obtain ⟨b, hb, hiff⟩ := cfg.level3.check_eq_ok hg now
      exact ⟨b, hb, by simp [hload, hiff]⟩
  · exact ⟨false, by rw [isFlowEligible, if_pos (by simpa using hload)], by simp [hload]⟩

end FlowManager

/-! ### The selected flow -/

/-- The selected flow `f`, of the index `k`, is listed, at the place the relative index tells. -/
def SelectedKept (test : ℕ → FlowT → Except Failure Bool) (man : FlowManager) (k : ℕ) (f : FlowT) :
    Prop :=
  ∃ r, man.eligibleFLows test = .ok r ∧ ∃ p : ℕ, r.relativeIndexOfSelected = ⟨p, .exactMatch⟩ ∧
    r.eligibleFlows[p]? = some f ∧ r.absoluteIndexes[p]? = some k

/-- The selected flow is listed just if it passes the test. -/
theorem selectedKept_iff_eligible {test : ℕ → FlowT → Except Failure Bool} {eligible : ℕ → Bool}
    {man : FlowManager} {k : ℕ} {f : FlowT} (hsel : man.selectedFlowIndex = k)
    (hf : man.flows[k]? = some f)
    (h : ∀ i f, man.flows[i]? = some f → test i f = .ok (eligible i)) :
    SelectedKept test man k f ↔ eligible k = true := by
  have hlt := (List.getElem?_eq_some_iff.mp hf).1
  obtain ⟨r, hr, hlisted⟩ := FlowManager.eligibleFLows_eq_ok h
  have hrel := hlisted.relative
  have habs := hlisted.absoluteIndexes
  rw [hsel] at hrel habs
  constructor
  · rintro ⟨r', hr', p, hp, -⟩
    obtain rfl := Except.ok.inj (hr.symm.trans hr')
    rw [hp] at hrel
    cases hselected : eligibleSelected eligible k man.flows.length with
    | nil =>
      rw [hselected] at hrel
      cases habove : eligibleAbove eligible k man.flows.length with
      | nil =>
        rw [habove] at hrel
        have hneg := (RelativeIndexOfSelected.mk.inj hrel).1
        omega
      | cons a rest =>
        rw [habove] at hrel
        cases (RelativeIndexOfSelected.mk.inj hrel).2
    | cons i rest =>
      obtain ⟨-, heligible, hik⟩ := mem_eligibleSelected.mp (hselected ▸ List.mem_cons_self)
      rwa [Int.ofNat_inj.mp hik] at heligible
  · intro heligible
    have hmem : k ∈ eligibleSelected eligible k man.flows.length :=
      mem_eligibleSelected.mpr ⟨hlt, heligible, rfl⟩
    obtain ⟨i, rest, hcons⟩ := List.exists_cons_of_ne_nil (List.ne_nil_of_mem hmem)
    rw [hcons] at hrel
    have hat : r.absoluteIndexes[(eligibleBelow eligible k man.flows.length).length]? = some k := by
      obtain ⟨-, -, hik⟩ := mem_eligibleSelected.mp (hcons ▸ List.mem_cons_self)
      rw [habs, hcons, Int.ofNat_inj.mp hik]
      simp
    refine ⟨r, hr, _, hrel, ?_, hat⟩
    obtain ⟨hp, hk⟩ := List.getElem?_eq_some_iff.mp hat
    have hp' := hlisted.eligibleFlows.length_eq ▸ hp
    have hflow := hlisted.eligibleFlows.get hp' hp
    rw [List.get_eq_getElem, List.get_eq_getElem, hk, hf] at hflow
    rw [List.getElem?_eq_getElem hp', Option.some.inj hflow]

/-- The test has an answer for every flow, as long as one of them is selected. -/
theorem FlowManager.exists_eligible (cfg : FlowEligibility) (now : ℕ → Int64) {man : FlowManager}
    {k : ℕ} {f : FlowT} (hsel : man.selectedFlowIndex = k) (hf : man.flows[k]? = some f)
    (hcounted : man.Counted) :
    ∃ eligible : ℕ → Bool, ∀ i g, man.flows[i]? = some g →
      man.isFlowEligible cfg (now i) g = .ok (eligible i) ∧
        (eligible i = true ↔ g.d.hasLoadGreater1 = true ∧
          ∀ entry, cfg.level man.flows.length = some entry → entry.Passes (now i) g.d) := by
  have htest : ∀ i, ∃ b, ∀ g, man.flows[i]? = some g → man.isFlowEligible cfg (now i) g = .ok b ∧
      (b = true ↔ g.d.hasLoadGreater1 = true ∧
        ∀ entry, cfg.level man.flows.length = some entry → entry.Passes (now i) g.d) := by
    intro i
    cases hg : man.flows[i]? with
    | none => exact ⟨false, nofun⟩
    | some g =>
      obtain ⟨b, hb⟩ := isFlowEligible_eq_ok cfg (now i) hsel hf
        (hcounted g (List.mem_of_getElem? hg))
      refine ⟨b, fun g' hg' => ?_⟩
      obtain rfl := Option.some.inj hg'
      exact hb
  choose eligible heligible using htest
  exact ⟨eligible, heligible⟩

/-- **The selected flow stays in the list exactly if there are few flows, or it passes the check of
their level like any other.** -/
theorem selectedKept_iff (cfg : FlowEligibility) (now : ℕ → Int64) {man : FlowManager} {k : ℕ}
    {f : FlowT} (hsel : man.selectedFlowIndex = k) (hf : man.flows[k]? = some f)
    (hload : f.d.hasLoadGreater1 = true) (hcounted : man.Counted) :
    SelectedKept (fun i => man.isFlowEligible cfg (now i)) man k f ↔
      ∀ entry, cfg.level man.flows.length = some entry → entry.Passes (now k) f.d := by
  obtain ⟨eligible, heligible⟩ := FlowManager.exists_eligible cfg now hsel hf hcounted
  rw [selectedKept_iff_eligible hsel hf fun i g hg => (heligible i g hg).1,
    (heligible k f hf).2, and_iff_right hload]

/-- The values the configuration has when there is no file. -/
def defaultEligibility : FlowEligibility := ⟨7, ⟨6, 60, 15⟩, ⟨6, 40, 30⟩, ⟨0, 20, 40⟩⟩

/-- A flow with `n` data points of the time 0. -/
def flowOfPoints (n : ℕ) : FlowT where
  d := (List.replicate n ⟨0, 0, .fin 1, 0, 0, 0⟩).foldl (FlowDatapointsT.append (fun _ => 0) 0)
    newFlowDataPoints
  src := ⟨"10.0.0.1", 80⟩
  dst := ⟨"10.0.0.2", 443⟩
  flowId := 1
  prio := 0

/-- Seven flows; the first one is selected, and has four data points. -/
def sevenFlows : FlowManager where
  flows := flowOfPoints 4 :: List.replicate 6 (flowOfPoints 0)
  selectedFlowIndex := 0
  version := 8

theorem counted_sevenFlows : sevenFlows.Counted := by
  have hpoints (n : ℕ) : (flowOfPoints n).d.Counted := by
    have happend : ∀ d : FlowDatapointsT, d.Counted →
        ((List.replicate n ⟨0, 0, .fin 1, 0, 0, 0⟩).foldl
          (FlowDatapointsT.append (fun _ => 0) 0) d).Counted := by
      induction n with
      | zero => exact fun d hd => hd
      | succ n ih => exact fun d hd => ih _ (hd.append _ _ _)
    exact happend _ FlowDatapointsT.counted_new
  simp [FlowManager.Counted, sevenFlows, hpoints]

/-- At the time of its data points the selected flow is listed. -/
theorem recent_selected_flow_kept :
    SelectedKept (fun _ => sevenFlows.isFlowEligible defaultEligibility 0) sevenFlows 0
      (flowOfPoints 4) := by
  refine (selectedKept_iff defaultEligibility (fun _ => 0) (by decide) (by decide +kernel)
    (by decide +kernel) counted_sevenFlows).mpr ?_
  rintro entry hentry
  have hlevel : defaultEligibility.level sevenFlows.flows.length = some ⟨6, 60, 15⟩ := by decide
  obtain rfl := Option.some.inj (hlevel.symm.trans hentry)
  exact .inr (.inr ⟨by decide +kernel, 0, by decide +kernel, by decide +kernel⟩)

/-- **The selected flow is idle.**  Hundred seconds later it is not listed any more. -/
theorem idle_selected_flow_leaves :
    sevenFlows.selectedFlowIndex = 0 ∧ sevenFlows.flows[0]? = some (flowOfPoints 4) ∧
      (flowOfPoints 4).d.hasLoadGreater1 = true ∧
      ¬ SelectedKept (fun _ => sevenFlows.isFlowEligible defaultEligibility 100000) sevenFlows 0
        (flowOfPoints 4) := by
  refine ⟨rfl, by decide +kernel, by decide +kernel, ?_⟩
  rintro ⟨r, hr, p, hp, -⟩
  have hnone : (sevenFlows.eligibleFLows fun _ =>
      sevenFlows.isFlowEligible defaultEligibility 100000).toOption.map
        EligibleFlows.relativeIndexOfSelected = some ⟨-1, .exactMatch⟩ := by decide +kernel
  rw [hr] at hnone
  have hindex := congrArg RelativeIndexOfSelected.index (hp.symm.trans (Option.some.inj hnone))
  exact absurd hindex (by simp)

end Jens
