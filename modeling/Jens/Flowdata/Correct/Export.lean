import Jens.Flowdata.Correct.ReadFromLine
import Jens.Lib.Outcome

/-!
# What `drshow` exports

Samples are printed and read one after another, each with its append.  Then the flows are those of
the samples, the columns of each are those of its samples, and its priority is the one of its first
sample, as nothing changes the priority later (`Collected`).  The rows `ExportToFile` writes are
those of `CsvRecord` but for the priority, hence they are the same exactly if the priority of a flow
never changes (`export_iff`).
-/

namespace Jens

/-- A sample of `drplay` whose time a float can hold. -/
structure Printable (p : DbMeasurePacket) : Prop where
  time_lt : p.time.toNat < 2 ^ 53
  flow : ∃ s : DbNetworkFlow, s.Dotted ∧ p.netFlowString = s.measureIdStr

/-- The ends of a flow of `drplay`. -/
def DbNetworkFlow.ends (s : DbNetworkFlow) : NetEndPoint × NetEndPoint :=
  (endPoint s.sourceIp s.sourcePort, endPoint s.destinationIp s.destinationPort)

theorem identifier_of_ends {v : FlowT} {s : DbNetworkFlow} (h : v.ends = s.ends) :
    v.identifier = s.measureIdStr := by
  obtain ⟨hsrc, hdst⟩ := Prod.mk.inj h
  rw [FlowT.identifier, hsrc, hdst, str_endPoint, str_endPoint]
  simp [endpointStr, DbNetworkFlow.measureIdStr, String.append_assoc]

/-- The identifier tells flows with dotted ends apart. -/
theorem ends_eq_of_identifier_eq {u : FlowT} {s t : DbNetworkFlow} (hs : s.Dotted) (ht : t.Dotted)
    (hu : u.ends = t.ends) (h : u.identifier = s.measureIdStr) : u.ends = s.ends := by
  rw [identifier_of_ends hu] at h
  obtain ⟨⟨hsrc, hsport⟩, hdst, hdport⟩ := DbNetworkFlow.measureIdStr_inj ht hs h
  rw [hu, DbNetworkFlow.ends, DbNetworkFlow.ends, hsrc, hsport, hdst, hdport]

/-! ### The state after some samples -/

/-- The samples of a flow. -/
def FlowT.samples (v : FlowT) (ps : List DbMeasurePacket) : List DbMeasurePacket :=
  ps.filter fun p => p.netFlowString = v.identifier

/-- A flow of the samples `qs`, with the data points of the samples `ps`. -/
structure FlowT.Collects (v : FlowT) (qs ps : List DbMeasurePacket) : Prop where
  dotted : ∃ s : DbNetworkFlow, s.Dotted ∧ v.ends = s.ends
  first : ∃ q, (v.samples qs).head? = some q ∧ v.prio = (q.netFlowPrio.toNat : ℤ)
  holds : v.d.Holds ((v.samples ps).map samplePoint)
  counted : v.d.stateId = (v.samples ps).length
  length : v.d.lengthStateId = 0 ∧ v.d.length = 0

/-- The flows are those of the samples `qs`, and the data points those of the samples `ps`. -/
structure Collected (qs ps : List DbMeasurePacket) (man : FlowManager) : Prop where
  unique : UniqueBy FlowT.ends man.flows
  listed : ∀ q ∈ qs, ∃ v ∈ man.flows, v.identifier = q.netFlowString
  flow : ∀ v ∈ man.flows, v.Collects qs ps

theorem collected_new : Collected [] [] newFlowManager where
  unique := .nil _
  listed _ h := by cases h
  flow _ h := by cases h

theorem FlowT.samples_concat_of_eq {v : FlowT} {p : DbMeasurePacket}
    (h : p.netFlowString = v.identifier) (ps : List DbMeasurePacket) :
    v.samples (ps ++ [p]) = v.samples ps ++ [p] := by
  simp [samples, h]

theorem FlowT.samples_concat_of_ne {v : FlowT} {p : DbMeasurePacket}
    (h : p.netFlowString ≠ v.identifier) (ps : List DbMeasurePacket) :
    v.samples (ps ++ [p]) = v.samples ps := by
  simp [samples, h]

variable {ps qs : List DbMeasurePacket} {man : FlowManager} {p : DbMeasurePacket}
  {s : DbNetworkFlow}

/-- The first sample of a flow stays the first one. -/
theorem FlowT.Collects.concat {v : FlowT} (h : v.Collects qs ps) (p : DbMeasurePacket) :
    v.Collects (qs ++ [p]) ps := by
  obtain ⟨q, hq, hprio⟩ := h.first
  refine ⟨h.dotted, ⟨q, ?_, hprio⟩, h.holds, h.counted, h.length⟩
  rw [samples, List.filter_append, List.head?_append]
  exact Option.or_eq_some_iff.mpr (.inl hq)

/-- The flow of the next sample is there. -/
theorem Collected.found (h : Collected qs ps man) (hstr : p.netFlowString = s.measureIdStr)
    (hmem : s.ends ∈ man.ends) : Collected (qs ++ [p]) ps man := by
  refine ⟨h.unique, ?_, fun v hv => (h.flow v hv).concat p⟩
  intro q hq
  rcases List.mem_append.mp hq with hq | hq
  · exact h.listed q hq
  · rw [List.mem_singleton.mp hq, hstr]
    obtain ⟨v, hv, hends⟩ := List.mem_map.mp hmem
    exact ⟨v, hv, identifier_of_ends hends⟩

/-- A flow that is not there has no samples yet. -/
theorem Collected.samples_eq_nil (h : Collected qs ps man) (hs : s.Dotted) {v : FlowT}
    (hv : v.ends = s.ends) (hmem : s.ends ∉ man.ends) : v.samples qs = [] := by
  apply List.filter_eq_nil_iff.mpr
  intro q hq
  obtain ⟨u, hu, huid⟩ := h.listed q hq
  obtain ⟨t, ht, huends⟩ := (h.flow u hu).dotted
  rw [decide_eq_true_eq, identifier_of_ends hv]
  intro heq
  have hends : u.ends = s.ends := ends_eq_of_identifier_eq hs ht huends (huid.trans heq)
  exact hmem (hends ▸ List.mem_map_of_mem hu)

/-- The flow of the next sample is new. -/
theorem Collected.added (h : Collected qs qs man) (hs : s.Dotted)
    (hstr : p.netFlowString = s.measureIdStr) (hmem : s.ends ∉ man.ends) :
    Collected (qs ++ [p]) qs (man.append (sampleFlow s p.netFlowPrio)) := by
  -- the flow as it is in the list
  obtain ⟨new, hnew, hflows⟩ : ∃ new : FlowT,
      new = { sampleFlow s p.netFlowPrio with flowId := Int32.ofNat (man.flows.length + 1) } ∧
      (man.append (sampleFlow s p.netFlowPrio)).flows = man.flows ++ [new] := ⟨_, rfl, rfl⟩
  have hends : new.ends = s.ends := by rw [hnew]; rfl
  have hid : new.identifier = p.netFlowString := by rw [identifier_of_ends hends, hstr]
  have hnil : new.samples qs = [] := h.samples_eq_nil hs hends hmem
  have hfirst : new.samples (qs ++ [p]) = [p] := by
    rw [FlowT.samples_concat_of_eq hid.symm, hnil, List.nil_append]
  have hd : new.d = newFlowDataPoints := by rw [hnew]; rfl
  have hprio : new.prio = (p.netFlowPrio.toNat : ℤ) := by rw [hnew]; rfl
  refine ⟨?_, ?_, ?_⟩
  · rw [hflows]
    refine h.unique.concat fun v hv heq => hmem ?_
    rw [← hends, ← heq]
    exact List.mem_map_of_mem hv
  · intro q hq
    rw [hflows]
    rcases List.mem_append.mp hq with hq | hq
    · obtain ⟨v, hv, hvid⟩ := h.listed q hq
      exact ⟨v, List.mem_append_left _ hv, hvid⟩
    · rw [List.mem_singleton.mp hq]
      exact ⟨new, List.mem_append_right _ (List.mem_singleton_self new), hid⟩
  · intro v hv
    rw [hflows] at hv
    rcases List.mem_append.mp hv with hv | hv
    · exact (h.flow v hv).concat p
    · rw [List.mem_singleton.mp hv]
      refine ⟨⟨s, hs, hends⟩, ⟨p, by rw [hfirst]; rfl, hprio⟩, ?_, ?_, ?_⟩
      · rw [hnil, hd]
        exact FlowDatapointsT.holds_new
      · rw [hnil, hd]
        rfl
      · rw [hd]
        exact ⟨rfl, rfl⟩

theorem FlowDatapointsT.stateId_append (cv : F64 → Int64) (now : Int64) (d : FlowDatapointsT)
    (x : DataPoint) : (d.append cv now x).stateId = d.stateId + 1 := by
  simp only [append, appendBody, List.foldl_cons, List.foldl_nil, exec]
  split_ifs <;> rfl

theorem FlowDatapointsT.length_append (cv : F64 → Int64) (now : Int64) (d : FlowDatapointsT)
    (x : DataPoint) : (d.append cv now x).lengthStateId = d.lengthStateId ∧
      (d.append cv now x).length = d.length := by
  simp only [append, appendBody, List.foldl_cons, List.foldl_nil, exec]
  split_ifs <;> exact ⟨rfl, rfl⟩

/-- The data point of the next sample is appended. -/
theorem Collected.appended (h : Collected (qs ++ [p]) qs man) (cv : F64 → Int64) (now : Int64)
    (hs : s.Dotted) (hstr : p.netFlowString = s.measureIdStr) {i : ℕ} {v : FlowT}
    (hv : man.flows[i]? = some v) (hends : v.ends = s.ends) :
    Collected (qs ++ [p]) (qs ++ [p])
      (man.modify i fun d => d.append cv now (samplePoint p)) := by
  have hmem : v ∈ man.flows := List.mem_of_getElem? hv
  have hid : p.netFlowString = v.identifier := by rw [identifier_of_ends hends, hstr]
  refine ⟨?_, ?_, ?_⟩
  · have := h.unique
    rw [UniqueBy] at this ⊢
    rwa [FlowManager.map_modify fun _ _ => rfl]
  · intro q hq
    obtain ⟨u, hu, huid⟩ := h.listed q hq
    have hids : u.identifier ∈ man.flows.map FlowT.identifier := List.mem_map_of_mem hu
    rw [← FlowManager.map_modify (i := i) fun _ _ => rfl] at hids
    obtain ⟨u', hu', heq⟩ := List.mem_map.mp hids
    exact ⟨u', hu', heq.trans huid⟩
  · intro u hu
    rcases FlowManager.mem_modify h.unique hv hu with rfl | ⟨hu, hne⟩
    · have hold := h.flow v hmem
      have hnew : v.samples (qs ++ [p]) = v.samples qs ++ [p] := FlowT.samples_concat_of_eq hid qs
      refine ⟨hold.dotted, hold.first, ?_, ?_, ?_⟩
      · show (v.d.append cv now (samplePoint p)).Holds ((v.samples (qs ++ [p])).map samplePoint)
        rw [hnew, List.map_append]
        exact hold.holds.append cv now (samplePoint p)
      · show (v.d.append cv now (samplePoint p)).stateId = (v.samples (qs ++ [p])).length
        rw [hnew, FlowDatapointsT.stateId_append, hold.counted, List.length_append]
        rfl
      · show _ ∧ _
        rw [(FlowDatapointsT.length_append ..).1, (FlowDatapointsT.length_append ..).2]
        exact hold.length
    -- another flow, so the sample is not one of its own
    · have hold := h.flow u hu
      obtain ⟨t, ht, huends⟩ := hold.dotted
      have hne' : p.netFlowString ≠ u.identifier := by
        intro heq
        rw [hends] at hne
        exact hne (ends_eq_of_identifier_eq hs ht huends (heq.symm.trans hstr))
      have hsame : u.samples (qs ++ [p]) = u.samples qs := FlowT.samples_concat_of_ne hne' qs
      refine ⟨hold.dotted, hold.first, ?_, ?_, hold.length⟩
      · rw [hsame]
        exact hold.holds
      · rw [hsame]
        exact hold.counted

/-- One sample. -/
theorem Collected.readSample {os : Os} (hos : os.ReadsNumbers) (cv : F64 → Int64) (now : Int64)
    (h : Collected ps ps man) (hp : Printable p) :
    ∃ man', man.readSample os cv now p = .ok man' ∧ Collected (ps ++ [p]) (ps ++ [p]) man' := by
  obtain ⟨s, hs, hstr⟩ := hp.flow
  have hparse := parseLine_printLine hos hs hstr hp.time_lt
  have hread := readFromLine_of_measurement hparse man
  -- the flows when the goroutine starts
  obtain ⟨man₁, hman₁, hcol⟩ : ∃ man₁, man₁ = (if man.contains (sampleFlow s p.netFlowPrio) then man
      else man.append (sampleFlow s p.netFlowPrio)) ∧
      s.ends ∈ man₁.ends ∧ Collected (ps ++ [p]) ps man₁ := by
    refine ⟨_, rfl, ?_⟩
    by_cases hmem : s.ends ∈ man.ends
    · rw [if_pos (FlowManager.contains_iff.mpr hmem)]
      exact ⟨hmem, h.found hstr hmem⟩
    · have hcon : man.contains (sampleFlow s p.netFlowPrio) ≠ true := fun hc =>
        hmem (FlowManager.contains_iff.mp hc)
      rw [if_neg hcon]
      refine ⟨?_, h.added hs hstr hmem⟩
      rw [FlowManager.ends_append]
      exact List.mem_append_right _ (List.mem_singleton_self _)
  rw [← hman₁] at hread
  obtain ⟨i, v, hget, hv, hends⟩ := FlowManager.get_of_mem (f := sampleFlow s p.netFlowPrio) hcol.1
  refine ⟨_, ?_, hcol.2.appended cv now hs hstr hv hends⟩
  rw [FlowManager.readSample, hread]
  show man₁.getAndAppendTo cv now (sampleFlow s p.netFlowPrio) (samplePoint p) = _
  rw [FlowManager.getAndAppendTo, hget]

/-! ### The rows -/

/-- The row of a sample when its flow has this priority and this identifier. -/
def exportedRow (prio : ℤ) (identifier : String) (p : DbMeasurePacket) : List String :=
  [toString p.time.toNat, toString p.packetSojournTimeMs.toNat, toString p.loadKbits.toNat,
    toString p.capacitykbits.toNat, toString p.ecn.toNat, toString p.dropped.toNat, toString prio,
    identifier]

/-- The row is the one of `CsvRecord` exactly if the priority is the one of the sample. -/
theorem exportedRow_eq_csvRecord_iff {prio : UInt8} :
    exportedRow prio.toNat p.netFlowString p = p.csvRecord ↔ prio = p.netFlowPrio := by
  have hcell : (prio.toNat : ℤ).repr = p.netFlowPrio.toNat.repr ↔ prio = p.netFlowPrio := by
    constructor
    · intro h
      exact UInt8.toNat_inj.mp (Text.toString_nat_inj (congrArg String.toList h))
    · intro h
      rw [h]
      rfl
  simp [exportedRow, DbMeasurePacket.csvRecord, hcell]

theorem cell_eq_ok (cv : F64 → Int64) (proj : DataPoint → F64) {value i : ℕ}
    (hp : ps[i]? = some p) (hproj : proj (samplePoint p) = .fin value) (hlt : value < 2 ^ 63) :
    FlowT.cell cv ((ps.map samplePoint).map proj) i = .ok (toString value) := by
  have hcell : ((ps.map samplePoint).map proj)[i]? = some (.fin value) := by
    rw [List.getElem?_map, List.getElem?_map, hp, ← hproj]
    rfl
  rw [FlowT.cell, hcell]
  dsimp only
  rw [F64.toInt_toInt64 cv hlt]
  rfl

/-- A turn of the loop of `ExportToFile`. -/
theorem exportLine_eq_ok (cv : F64 → Int64) {v : FlowT} (h : v.d.Holds (ps.map samplePoint))
    {i : ℕ} (hp : ps[i]? = some p) (ht : p.time.toNat < 2 ^ 53) :
    v.exportLine cv i = .ok (exportedRow v.prio v.identifier p) := by
  have hu32 (n : UInt32) : n.toNat < 2 ^ 63 := by
    have := n.toNat_lt
    omega
  rw [FlowT.exportLine, h.timeStamp, h.capacity, h.dropp, h.ecn, h.load, h.sojourn,
    cell_eq_ok cv DataPoint.ts hp rfl (by omega), cell_eq_ok cv DataPoint.cap hp rfl (hu32 _),
    cell_eq_ok cv DataPoint.dr hp rfl (hu32 _), cell_eq_ok cv DataPoint.ec hp rfl (hu32 _),
    cell_eq_ok cv DataPoint.ld hp rfl (hu32 _), cell_eq_ok cv DataPoint.sj hp rfl (hu32 _)]
  rfl

theorem FlowDatapointsT.Holds.readLength {d : FlowDatapointsT} {xs : List DataPoint}
    (h : d.Holds xs) (hkept : d.lengthStateId = 0 ∧ d.length = 0) (hcount : d.stateId = xs.length) :
    d.readLength = .ok xs.length := by
  rw [FlowDatapointsT.readLength, hkept.1, hkept.2, hcount]
  by_cases h0 : 0 = xs.length
  · rw [if_pos h0, ← h0]
  · rw [if_neg h0, calcLength, if_pos]
    · rw [h.timeStamp, List.length_map]
    · simp [h.timeStamp, h.sojourn, h.load, h.ecn, h.dropp, h.delay]

/-- The rows of a flow. -/
theorem Collected.exportToFile (cv : F64 → Int64) {v : FlowT} (h : v.Collects ps ps)
    (ht : ∀ p ∈ ps, p.time.toNat < 2 ^ 53) :
    v.exportToFile cv none =
      .ok (constHeading :: (v.samples ps).map (exportedRow v.prio v.identifier)) := by
  have hlen : v.d.readLength = .ok (v.samples ps).length := by
    have := h.holds.readLength h.length (by rw [h.counted, List.length_map])
    rwa [List.length_map] at this
  have hlines : (List.range (v.samples ps).length).mapM (v.exportLine cv) =
      .ok ((v.samples ps).map (exportedRow v.prio v.identifier)) := by
    apply Except.mapM_range_eq_ok
    intro i p hp
    have hmem : p ∈ ps := (List.mem_filter.mp (List.mem_of_getElem? hp)).1
    exact exportLine_eq_ok cv h.holds hp (ht p hmem)
  rw [FlowT.exportToFile, hlen]
  show (do
    let lines ← (List.range (v.samples ps).length).mapM (v.exportLine cv)
    pure (constHeading :: lines)) = _
  rw [hlines]
  rfl

/-- The rows of a flow are those of `CsvRecord` exactly if its samples have one priority. -/
theorem FlowT.Collects.rows_iff {v : FlowT} (h : v.Collects ps ps) :
    (v.samples ps).map (exportedRow v.prio v.identifier) =
        (v.samples ps).map DbMeasurePacket.csvRecord ↔
      ∀ p ∈ v.samples ps, ∀ p' ∈ v.samples ps, p.netFlowPrio = p'.netFlowPrio := by
  obtain ⟨q, hq, hprio⟩ := h.first
  have hqmem : q ∈ v.samples ps := List.mem_of_head? hq
  have hrow {p : DbMeasurePacket} (hp : p ∈ v.samples ps) :
      exportedRow v.prio v.identifier p = p.csvRecord ↔ q.netFlowPrio = p.netFlowPrio := by
    have hid : p.netFlowString = v.identifier := by simpa using (List.mem_filter.mp hp).2
    rw [hprio, ← hid]
    exact exportedRow_eq_csvRecord_iff
  rw [List.map_inj_left]
  constructor
  · intro hall p hp p' hp'
    exact ((hrow hp).mp (hall p hp)).symm.trans ((hrow hp').mp (hall p' hp'))
  · intro hall p hp
    exact (hrow hp).mpr (hall q hqmem p hp)

/-- **The rows that are exported are those of `CsvRecord` if and only if the samples of a flow all
have the same priority.**  The samples `q.2` are read one after another, each appended at the time
`q.1`; every one of them has its flow. -/
theorem export_iff {os : Os} (hos : os.ReadsNumbers) (cv : F64 → Int64)
    {samples : List (Int64 × DbMeasurePacket)} (hp : ∀ q ∈ samples, Printable q.2) :
    ∃ man, samples.foldlM (fun man q => FlowManager.readSample os cv q.1 man q.2) newFlowManager =
        .ok man ∧
      (∀ q ∈ samples, ∃ v ∈ man.flows, v.identifier = q.2.netFlowString) ∧
      ((∀ v ∈ man.flows, v.exportToFile cv none = .ok (constHeading ::
          ((samples.map Prod.snd).filter fun p => p.netFlowString = v.identifier).map
            DbMeasurePacket.csvRecord)) ↔
        ∀ q ∈ samples, ∀ q' ∈ samples, q.2.netFlowString = q'.2.netFlowString →
          q.2.netFlowPrio = q'.2.netFlowPrio) := by
  have hread : ∃ man, samples.foldlM (fun man q => FlowManager.readSample os cv q.1 man q.2)
      newFlowManager = .ok man ∧ Collected (samples.map Prod.snd) (samples.map Prod.snd) man := by
    refine Except.exists_foldlM_eq_ok
      (I := fun done man => Collected (done.map Prod.snd) (done.map Prod.snd) man) collected_new ?_
    intro done man q hq hcol
    obtain ⟨man', hread, hcol'⟩ := hcol.readSample hos cv q.1 (hp q hq)
    rw [List.map_append]
    exact ⟨man', hread, hcol'⟩
  obtain ⟨man, hman, hcol⟩ := hread
  have hmem {q : Int64 × DbMeasurePacket} (hq : q ∈ samples) {v : FlowT}
      (hv : v.identifier = q.2.netFlowString) : q.2 ∈ v.samples (samples.map Prod.snd) :=
    List.mem_filter.mpr ⟨List.mem_map_of_mem hq, by simpa using hv.symm⟩
  refine ⟨man, hman, fun q hq => hcol.listed q.2 (List.mem_map_of_mem hq), ?_⟩
  -- flow by flow: what is exported, and when it is what is wanted
  have hflow : ∀ v ∈ man.flows, (v.exportToFile cv none = .ok (constHeading ::
      (v.samples (samples.map Prod.snd)).map DbMeasurePacket.csvRecord) ↔
        ∀ p ∈ v.samples (samples.map Prod.snd), ∀ p' ∈ v.samples (samples.map Prod.snd),
          p.netFlowPrio = p'.netFlowPrio) := by
    intro v hv
    have ht : ∀ p ∈ samples.map Prod.snd, p.time.toNat < 2 ^ 53 := by
      intro p hmem
      obtain ⟨q, hq, rfl⟩ := List.mem_map.mp hmem
      exact (hp q hq).time_lt
    rw [Collected.exportToFile cv (hcol.flow v hv) ht, ← (hcol.flow v hv).rows_iff]
    constructor
    · intro h
      exact (List.cons.inj (Except.ok.inj h)).2
    · intro h
      rw [h]
  constructor
  · intro hall q hq q' hq' hstr
    obtain ⟨v, hv, hid⟩ := hcol.listed q.2 (List.mem_map_of_mem hq)
    exact (hflow v hv).mp (hall v hv) _ (hmem hq hid) _ (hmem hq' (hid.trans hstr))
  · intro hall v hv
    apply (hflow v hv).mpr
    intro p hpmem p' hpmem'
    obtain ⟨hmem, hid⟩ := List.mem_filter.mp hpmem
    obtain ⟨hmem', hid'⟩ := List.mem_filter.mp hpmem'
    obtain ⟨q, hq, rfl⟩ := List.mem_map.mp hmem
    obtain ⟨q', hq', rfl⟩ := List.mem_map.mp hmem'
    exact hall q hq q' hq' (by simp_all)

/-- The samples of the example, with this priority. -/
def sampleWithPrio (prio : UInt8) : DbMeasurePacket := { exampleSample with netFlowPrio := prio }

theorem printable_sampleWithPrio (prio : UInt8) : Printable (sampleWithPrio prio) where
  time_lt := by show exampleSample.time.toNat < 2 ^ 53; decide
  flow := ⟨_, dotted_exampleFlow, by show exampleSample.netFlowString = _; decide +kernel⟩

/-- Two samples. -/
theorem export_iff_twoSamples :
    ∃ man, [((5 : Int64), sampleWithPrio 2), (6, sampleWithPrio 2)].foldlM
      (fun man q => FlowManager.readSample numbersOs (fun _ => 0) q.1 man q.2) newFlowManager =
        .ok man ∧
      ∀ v ∈ man.flows, v.exportToFile (fun _ => 0) none = .ok (constHeading ::
        ([sampleWithPrio 2, sampleWithPrio 2].filter fun p => p.netFlowString = v.identifier).map
          DbMeasurePacket.csvRecord) := by
  have hprintable : ∀ q ∈ [((5 : Int64), sampleWithPrio 2), (6, sampleWithPrio 2)],
      Printable q.2 := by simp [printable_sampleWithPrio]
  obtain ⟨man, hman, -, hiff⟩ := export_iff readsNumbers_numbersOs (fun _ => 0) hprintable
  exact ⟨man, hman, hiff.mpr (by simp)⟩

/-- What is exported of these samples. -/
def exportOf (samples : List (Int64 × DbMeasurePacket)) :
    Except Failure (List (List (List String))) := do
  let man ← samples.foldlM
    (fun man q => FlowManager.readSample numbersOs (fun _ => 0) q.1 man q.2) newFlowManager
  man.flows.mapM fun v => v.exportToFile (fun _ => 0) none

/-- **The second of two samples has another priority, and its row is exported with the priority of
the first.** -/
theorem export_keeps_first_prio :
    exportOf [(5, sampleWithPrio 2), (6, sampleWithPrio 1)] =
        .ok [[constHeading, (sampleWithPrio 2).csvRecord, (sampleWithPrio 2).csvRecord]] ∧
      (sampleWithPrio 1).csvRecord ≠ (sampleWithPrio 2).csvRecord := by
  decide +kernel

end Jens
