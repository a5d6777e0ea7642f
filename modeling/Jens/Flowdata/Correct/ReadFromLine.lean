import Jens.Datatypes.Correct.Measure
import Jens.Flowdata.Correct.FlowManager
import Jens.Lib.F64Bits

/-!
# Lines of `drplay` are read back

The fields of a printed sample have no blank in them, so splitting the line gives them back
(`split_line`); the last one names the two ends of the flow (`newFlow_of_dotted`), and the others
are numbers.  Hence a printed sample is parsed to its flow and its data point
(`parseLine_printLine`), and `readFromLine` finds or adds that flow (`readFromLine_printLine`).

What happens to any other line is in `readFromLine_line`.  The lines on which it panics are those
whose end points have no port (`parseLine_error_iff`).
-/

namespace Jens

/-- `strconv.ParseFloat` reads the decimal digits of a number that a float can hold. -/
def Os.ReadsNumbers (os : Os) : Prop :=
  ∀ n < 2 ^ 53, ∃ bits, os.parseFloat (toString n) = some bits ∧ F64.ofBits bits = .fin (n : ℕ)

theorem parseFloat_toString {os : Os} (hos : os.ReadsNumbers) {n : ℕ} (h : n < 2 ^ 53) :
    parseFloat os (toString n) = .fin n := by
  obtain ⟨bits, hparse, hbits⟩ := hos n h
  rw [parseFloat, hparse]
  exact hbits

/-! ### The flow -/

/-- One end of a flow. -/
def endPoint (ip : String) (port : UInt16) : NetEndPoint := ⟨ip, (port.toNat : ℤ)⟩

theorem str_endPoint (ip : String) (port : UInt16) :
    (endPoint ip port).str = endpointStr ip port := rfl

theorem newNetEndPointFromString_endpointStr {ip : String} (h : IsDotted ip) (port : UInt16) :
    newNetEndPointFromString (endpointStr ip port) = .ok (some (endPoint ip port)) := by
  have hsplit : split (endpointStr ip port) ':' = [ip, toString port.toNat] :=
    split_of_splitOn (splitOn_endpointStr h port)
  have hlt : port.toNat < 2 ^ (32 - 1) := by
    have := port.toNat_lt
    omega
  rw [newNetEndPointFromString, hsplit]
  dsimp only
  rw [parseInt_toString hlt]
  rfl

/-- The flow of a sample as `NewFlow` makes it. -/
def sampleFlow (s : DbNetworkFlow) (prio : UInt8) : FlowT where
  d := newFlowDataPoints
  src := endPoint s.sourceIp s.sourcePort
  dst := endPoint s.destinationIp s.destinationPort
  flowId := 0
  prio := prio.toNat

theorem newFlow_of_dotted {s : DbNetworkFlow} (hs : s.Dotted) (prio : UInt8) :
    newFlow (endpointStr s.sourceIp s.sourcePort)
      (endpointStr s.destinationIp s.destinationPort) (toString prio.toNat) =
        .ok (sampleFlow s prio) := by
  have hlt : prio.toNat < 2 ^ (64 - 1) := by
    have := prio.toNat_lt
    omega
  rw [newFlow, newNetEndPointFromString_endpointStr hs.source,
    newNetEndPointFromString_endpointStr hs.destination, atoi, parseInt_toString hlt]
  rfl

/-! ### The line -/

/-- The data point of a sample. -/
def samplePoint (p : DbMeasurePacket) : DataPoint where
  ts := .fin p.time.toNat
  sj := .fin p.packetSojournTimeMs.toNat
  ld := .fin p.loadKbits.toNat
  ec := .fin p.ecn.toNat
  dr := .fin p.dropped.toNat
  cap := .fin p.capacitykbits.toNat

theorem trimNewline_printLine (p : DbMeasurePacket) :
    trimNewline p.printLine = " ".intercalate p.csvRecord := by
  have hline : p.printLine.toList = (" ".intercalate p.csvRecord).toList ++ ['\n'] :=
    String.toList_append
  rw [trimNewline, hline, if_pos (List.getLast?_concat ..), List.dropLast_concat,
    String.ofList_toList]

variable {p : DbMeasurePacket} {s : DbNetworkFlow}

theorem notMem_of_mem_csvRecord (hs : s.Dotted) (hstr : p.netFlowString = s.measureIdStr) :
    ∀ field ∈ p.csvRecord, ' ' ∉ field.toList := by
  have hnum (n : ℕ) : ' ' ∉ (toString n).toList := Text.notMem_toString_nat rfl n
  have hsrc := endpointStr_notMem hs.source s.sourcePort (c := ' ') rfl (by decide) (by decide)
  have hdst := endpointStr_notMem hs.destination s.destinationPort (c := ' ') rfl (by decide)
    (by decide)
  have hflow : ' ' ∉ p.netFlowString.toList := by
    rw [hstr, DbNetworkFlow.toList_measureIdStr]
    simp only [List.mem_append, List.mem_cons, not_or]
    exact ⟨hsrc, by decide, hdst⟩
  intro field hfield
  simp only [DbMeasurePacket.csvRecord, List.mem_cons, List.not_mem_nil, or_false] at hfield
  rcases hfield with rfl | rfl | rfl | rfl | rfl | rfl | rfl | rfl
  case inr.inr.inr.inr.inr.inr.inr => exact hflow
  all_goals exact hnum _

/-- The fields of a printed sample. -/
theorem split_line (hs : s.Dotted) (hstr : p.netFlowString = s.measureIdStr) :
    split (" ".intercalate p.csvRecord) ' ' = p.csvRecord := by
  apply split_of_splitOn
  rw [String.toList_intercalate]
  refine List.splitOn_intercalate ' ' ?_ (by simp [DbMeasurePacket.csvRecord])
  simpa using notMem_of_mem_csvRecord hs hstr

/-- A line that begins with a digit. -/
theorem not_http_of_isDigit {line : String} {c : Char} {rest : List Char}
    (h : line.toList = c :: rest) (hc : c.isDigit = true) : ¬ "http".toList <+: line.toList := by
  rintro ⟨tail, htail⟩
  rw [h] at htail
  have hfirst : 'h' = c := (List.cons.inj htail).1
  rw [← hfirst] at hc
  cases hc

/-- A printed sample begins with a digit. -/
theorem not_http (p : DbMeasurePacket) :
    ¬ "http".toList <+: (" ".intercalate p.csvRecord).toList := by
  have hline : ∃ rest, (" ".intercalate p.csvRecord).toList =
      Nat.toDigits 10 p.time.toNat ++ rest := by
    rw [DbMeasurePacket.csvRecord, String.intercalate_cons_cons]
    simp only [String.toList_append, Text.toList_toString_nat, List.append_assoc]
    exact ⟨_, rfl⟩
  obtain ⟨rest, hrest⟩ := hline
  cases hd : Nat.toDigits 10 p.time.toNat with
  | nil => exact absurd hd Nat.toDigits_ne_nil
  | cons c cs =>
    rw [hd] at hrest
    exact not_http_of_isDigit hrest
      (Nat.isDigit_of_mem_toDigits (by decide) (by decide) (hd ▸ List.mem_cons_self))

/-- A line of eight fields whose last one has two ends. -/
theorem parseLine_of_split (os : Os) {line ts sj ld cap ec dr prio netw src dst : String}
    {f : FlowT}
    (hhttp : ¬ "http".toList <+: line.toList)
    (hfields : split line ' ' = [ts, sj, ld, cap, ec, dr, prio, netw])
    (hends : split netw '-' = [src, dst]) (hf : newFlow src dst prio = .ok f) :
    parseLine os line = .ok (.measurement f
      { ts := parseFloat os ts
        sj := parseFloat os sj
        ld := parseFloat os ld
        ec := parseFloat os ec
        dr := parseFloat os dr
        cap := parseFloat os cap }) := by
  rw [parseLine, if_neg hhttp, hfields]
  dsimp only
  rw [hends]
  dsimp only
  rw [hf]
  rfl

/-- A printed sample is parsed to its flow and its data point. -/
theorem parseLine_printLine {os : Os} (hos : os.ReadsNumbers) (hs : s.Dotted)
    (hstr : p.netFlowString = s.measureIdStr) (ht : p.time.toNat < 2 ^ 53) :
    parseLine os (trimNewline p.printLine) =
      .ok (.measurement (sampleFlow s p.netFlowPrio) (samplePoint p)) := by
  have hnum (n : UInt32) : parseFloat os (toString n.toNat) = .fin n.toNat := by
    have := n.toNat_lt
    exact parseFloat_toString hos (by omega)
  have hflow : split p.netFlowString '-' = [endpointStr s.sourceIp s.sourcePort,
      endpointStr s.destinationIp s.destinationPort] := by
    rw [hstr]
    exact split_of_splitOn (DbNetworkFlow.splitOn_measureIdStr hs)
  rw [trimNewline_printLine, parseLine_of_split os (not_http p) (split_line hs hstr) hflow
    (newFlow_of_dotted hs _), parseFloat_toString hos ht]
  simp only [hnum]
  rfl

/-! ### `readFromLine` -/

theorem readFromLine_of_measurement {os : Os} {line : String} {f : FlowT} {x : DataPoint}
    (h : parseLine os line = .ok (.measurement f x)) (man : FlowManager) :
    man.readFromLine os line =
      .ok (true, if man.contains f then man else man.append f, some (f, x)) := by
  rw [FlowManager.readFromLine, h]
  rfl

/-- A flow that is not there is added at the end. -/
theorem get_append_of_notMem {man : FlowManager} {f : FlowT} (h : f.ends ∉ man.ends) :
    (man.append f).get f = some man.flows.length := by
  have hnone : man.flows.findIdx? (fun v => v.equals f) = none := by
    rw [List.findIdx?_eq_none_iff]
    intro v hv
    by_contra hne
    have heq : v.ends = f.ends := FlowT.equals_iff.mp (by simpa using hne)
    exact h (heq ▸ List.mem_map_of_mem hv)
  rw [FlowManager.get, FlowManager.append, List.findIdx?_append, hnone]
  simp [FlowT.equals, NetEndPoint.equals]

/-- **A printed sample is read back.**  `readFromLine` returns `true`; the goroutine it starts gets
the values of the sample, and finds the flow with the ends of the sample; that flow was there
before, or it is new, without data and with the priority of the sample. -/
theorem readFromLine_printLine {os : Os} (hos : os.ReadsNumbers) (man : FlowManager)
    {p : DbMeasurePacket} {s : DbNetworkFlow} (hs : s.Dotted)
    (hstr : p.netFlowString = s.measureIdStr) (ht : p.time.toNat < 2 ^ 53) :
    ∃ (man' : FlowManager) (f : FlowT) (x : DataPoint) (i : ℕ) (v : FlowT),
      man.readFromLine os (trimNewline p.printLine) = .ok (true, man', some (f, x)) ∧
      x = { ts := .fin p.time.toNat
            sj := .fin p.packetSojournTimeMs.toNat
            ld := .fin p.loadKbits.toNat
            ec := .fin p.ecn.toNat
            dr := .fin p.dropped.toNat
            cap := .fin p.capacitykbits.toNat } ∧
      man'.get f = some i ∧ man'.flows[i]? = some v ∧
      v.src = ⟨s.sourceIp, s.sourcePort.toNat⟩ ∧
      v.dst = ⟨s.destinationIp, s.destinationPort.toNat⟩ ∧
      (man' = man ∨ v.ends ∉ man.ends ∧ man'.flows = man.flows ++ [v] ∧
        v.d = newFlowDataPoints ∧ v.prio = p.netFlowPrio.toNat) := by
  have hparse := parseLine_printLine hos hs hstr ht
  have hread := readFromLine_of_measurement hparse man
  by_cases hmem : (sampleFlow s p.netFlowPrio).ends ∈ man.ends
  · obtain ⟨i, v, hget, hv, hends⟩ := FlowManager.get_of_mem hmem
    obtain ⟨hsrc, hdst⟩ := Prod.mk.inj hends
    rw [if_pos (FlowManager.contains_iff.mpr hmem)] at hread
    exact ⟨man, _, _, i, v, hread, rfl, hget, hv, hsrc, hdst, .inl rfl⟩
  · have hcon : man.contains (sampleFlow s p.netFlowPrio) ≠ true := fun h =>
      hmem (FlowManager.contains_iff.mp h)
    rw [if_neg hcon] at hread
    exact ⟨_, _, _, man.flows.length, _, hread, rfl, get_append_of_notMem hmem,
      List.getElem?_concat_length, rfl, rfl, .inr ⟨hmem, rfl, rfl, rfl⟩⟩

/-- Surroundings where `ParseFloat` reads the numbers below `2 ^ 53`, and where there are no files.
-/
def numbersOs : Os where
  readFile path := .error ("open " ++ path ++ ": no such file or directory")
  notExist _ := true
  interfaceByName _ := some "no such network interface"
  csv _ := .error "EOF"
  parseFloat s :=
    (parseInt s 64).bind fun n =>
      if 0 ≤ n ∧ n < 2 ^ 53 then some (F64.natBits n.toNat) else none
  parseJson _ := .error "unexpected end of JSON input"
  render _ := []
  md5 _ := []
  round := F64.nearest

theorem readsNumbers_numbersOs : numbersOs.ReadsNumbers := by
  intro n hn
  have hlt : n < 2 ^ (64 - 1) := by omega
  have hparse : numbersOs.parseFloat (toString n) = some (F64.natBits n) := by
    show (parseInt (toString n) 64).bind _ = _
    rw [parseInt_toString hlt, Option.bind_some, if_pos (by omega), Int.toNat_natCast]
  exact ⟨_, hparse, F64.ofBits_natBits hn⟩

/-- A sample of a flow from 10.0.0.1:80 to 10.0.0.2:81. -/
def exampleSample : DbMeasurePacket where
  time := 1700000000000
  packetSojournTimeMs := 12
  loadKbits := 800
  ecn := 5
  dropped := 1
  fkFlowId := 1
  capacitykbits := 1000
  netFlowString := "10.0.0.1:80-10.0.0.2:81"
  netFlowPrio := 2

theorem dotted_exampleFlow :
    DbNetworkFlow.Dotted ⟨1, 1, "10.0.0.1", 80, "10.0.0.2", 81, 2⟩ :=
  ⟨⟨10, 0, 0, 1, by decide +kernel⟩, 10, 0, 0, 2, by decide +kernel⟩

/-- The first sample that is read. -/
theorem readFromLine_printLine_first :
    ∃ (man' : FlowManager) (f : FlowT) (x : DataPoint) (i : ℕ) (v : FlowT),
      newFlowManager.readFromLine numbersOs (trimNewline exampleSample.printLine) =
        .ok (true, man', some (f, x)) ∧
      man'.get f = some i ∧ man'.flows[i]? = some v ∧ v.src = ⟨"10.0.0.1", 80⟩ := by
  obtain ⟨man', f, x, i, v, hread, -, hget, hv, hsrc, -⟩ :=
    readFromLine_printLine readsNumbers_numbersOs newFlowManager (p := exampleSample)
      dotted_exampleFlow (by decide +kernel) (by decide +kernel)
  exact ⟨man', f, x, i, v, hread, hget, hv, hsrc⟩

/-! ### Any other line -/

/-- `host:port`, with a port of 32 bits. -/
def WellFormedEndPoint (s : String) : Prop :=
  ∃ host port n, split s ':' = [host, port] ∧ parseInt port 32 = some n

/-- Eight fields, the last one of the form `host:port-host:port`. -/
def WellFormedLine (line : String) : Prop :=
  ∃ timestamp sojourntime load capacity ecn drop prio netw src dst,
    split line ' ' = [timestamp, sojourntime, load, capacity, ecn, drop, prio, netw] ∧
    split netw '-' = [src, dst] ∧ WellFormedEndPoint src ∧ WellFormedEndPoint dst

/-- Another number of fields, or a last field that `-` does not split into two. -/
def Misshapen (line : String) : Prop :=
  (split line ' ').length ≠ 8 ∨
    ∃ netw, (split line ' ')[7]? = some netw ∧ (split netw '-').length ≠ 2

/-- A host and a port of 32 bits; what comes behind a second `:` is not looked at. -/
def HasPort (s : String) : Prop :=
  ∃ host port rest n, split s ':' = host :: port :: rest ∧ parseInt port 32 = some n

theorem WellFormedEndPoint.hasPort {s : String} (h : WellFormedEndPoint s) : HasPort s := by
  obtain ⟨host, port, n, hsplit, hport⟩ := h
  exact ⟨host, port, [], n, hsplit, hport⟩

/-- There is an end point to point at exactly if there is a port. -/
theorem newNetEndPointFromString_iff {s : String} :
    (∃ e, newNetEndPointFromString s = .ok (some e)) ↔ HasPort s := by
  constructor
  · rintro ⟨e, he⟩
    rw [newNetEndPointFromString] at he
    split at he
    case h_2 => cases he
    case h_1 host port rest hsplit =>
      split at he
      case h_1 => cases he
      case h_2 n hport => exact ⟨host, port, rest, n, hsplit, hport⟩
  · rintro ⟨host, port, rest, n, hsplit, hport⟩
    refine ⟨⟨host, n⟩, ?_⟩
    rw [newNetEndPointFromString, hsplit]
    dsimp only
    rw [hport]

theorem eq_some_of_deref {α : Type} {p : Option α} {a : α} (h : deref p = .ok a) : p = some a := by
  cases p with
  | none => cases h
  | some b => rw [Except.ok.inj h]

/-- **`newFlow` makes a flow of two end points that have a port**, and panics on all others. -/
theorem newFlow_ok_iff {src dst : String} (prio : String) :
    (∃ f, newFlow src dst prio = .ok f) ↔ HasPort src ∧ HasPort dst := by
  rw [← newNetEndPointFromString_iff, ← newNetEndPointFromString_iff]
  constructor
  · rintro ⟨f, hf⟩
    rw [newFlow] at hf
    obtain ⟨psrc, hsrc, hf⟩ := Except.bind_eq_ok.mp hf
    obtain ⟨pdst, hdst, hf⟩ := Except.bind_eq_ok.mp hf
    obtain ⟨s, hs, hf⟩ := Except.bind_eq_ok.mp hf
    obtain ⟨d, hd, -⟩ := Except.bind_eq_ok.mp hf
    rw [eq_some_of_deref hs] at hsrc
    rw [eq_some_of_deref hd] at hdst
    exact ⟨⟨s, hsrc⟩, d, hdst⟩
  · rintro ⟨⟨s, hs⟩, d, hd⟩
    rw [newFlow, hs, hd]
    exact ⟨_, rfl⟩

/-- A line on which `ReadFromLine` panics: its last field names two end points, and one of them has
no port. -/
def Portless (line : String) : Prop :=
  ¬ "http".toList <+: line.toList ∧
    ∃ timestamp sojourntime load capacity ecn drop prio netw src dst,
      split line ' ' = [timestamp, sojourntime, load, capacity, ecn, drop, prio, netw] ∧
      split netw '-' = [src, dst] ∧ ¬ (HasPort src ∧ HasPort dst)

theorem parseLine_error_iff {os : Os} {line : String} :
    (∃ e, parseLine os line = .error e) ↔ Portless line := by
  constructor
  · rintro ⟨e, he⟩
    unfold parseLine at he
    split_ifs at he with hhttp
    split at he
    case h_2 => cases he
    case h_1 ts sj ld cap ec dr prio netw hfields =>
    split at he
    case h_2 => cases he
    case h_1 src dst hends =>
    -- only the making of the flow is left to fail
    refine ⟨hhttp, ts, sj, ld, cap, ec, dr, prio, netw, src, dst, hfields, hends, fun hports => ?_⟩
    obtain ⟨f, hf⟩ := (newFlow_ok_iff prio).mpr hports
    rw [hf] at he
    cases he
  · rintro ⟨hhttp, ts, sj, ld, cap, ec, dr, prio, netw, src, dst, hfields, hends, hports⟩
    cases hf : newFlow src dst prio with
    | ok f => exact absurd ((newFlow_ok_iff prio).mp ⟨f, hf⟩) hports
    | error e =>
      refine ⟨e, ?_⟩
      rw [parseLine, if_neg hhttp, hfields]
      dsimp only
      rw [hends]
      dsimp only
      rw [hf]
      rfl

theorem parseLine_of_misshapen {os : Os} {line : String}
    (hhttp : ¬ "http".toList <+: line.toList) (h : Misshapen line) :
    parseLine os line = .ok (.returns false) := by
  rw [parseLine, if_neg hhttp]
  split
  case h_2 => rfl
  case h_1 netw hfields =>
    rcases h with hlen | ⟨netw', hnetw, hlen⟩
    · rw [hfields] at hlen
      exact absurd rfl hlen
    · rw [hfields] at hnetw
      have heq : netw' = netw := (Option.some.inj hnetw).symm
      rw [heq] at hlen
      split
      case h_2 => rfl
      case h_1 hends =>
        rw [hends] at hlen
        exact absurd rfl hlen

theorem not_portless_of_ok {os : Os} {line : String} {p : Parsed} (h : parseLine os line = .ok p) :
    ¬ Portless line := by
  intro hportless
  obtain ⟨e, he⟩ : ∃ e, parseLine os line = .error e := parseLine_error_iff.mpr hportless
  rw [h] at he
  cases he

/-- **What `readFromLine` does with a line.**  A line that begins with `http` is passed over, a
misshapen one is refused, and neither touches the flows; a well-formed line is read. -/
theorem readFromLine_line (os : Os) (man : FlowManager) (line : String) :
    ("http".toList <+: line.toList → man.readFromLine os line = .ok (true, man, none)) ∧
    (¬ "http".toList <+: line.toList → Misshapen line →
      man.readFromLine os line = .ok (false, man, none)) ∧
    (¬ "http".toList <+: line.toList → WellFormedLine line →
      ∃ man' started, man.readFromLine os line = .ok (true, man', some started)) := by
  refine ⟨?_, ?_, ?_⟩
  · intro hhttp
    rw [FlowManager.readFromLine, parseLine, if_pos hhttp]
    rfl
  · intro hhttp hshape
    rw [FlowManager.readFromLine, parseLine_of_misshapen hhttp hshape]
    rfl
  · rintro hhttp ⟨ts, sj, ld, cap, ec, dr, prio, netw, src, dst, hfields, hends, hsrc, hdst⟩
    obtain ⟨f, hf⟩ := (newFlow_ok_iff prio).mpr ⟨hsrc.hasPort, hdst.hasPort⟩
    have hparse := parseLine_of_split os hhttp hfields hends hf
    exact ⟨_, _, readFromLine_of_measurement hparse man⟩

/-- A line for each of the three. -/
theorem readFromLine_line_examples :
    newFlowManager.readFromLine numbersOs "https://host" = .ok (true, newFlowManager, none) ∧
      newFlowManager.readFromLine numbersOs "1 2 3" = .ok (false, newFlowManager, none) ∧
      ∃ man' started, newFlowManager.readFromLine numbersOs "1 2 3 4 5 6 7 a:1-b:2" =
        .ok (true, man', some started) := by
  have hread : WellFormedLine "1 2 3 4 5 6 7 a:1-b:2" :=
    ⟨"1", "2", "3", "4", "5", "6", "7", "a:1-b:2", "a:1", "b:2", by decide +kernel,
      by decide +kernel, ⟨"a", "1", 1, by decide +kernel, by decide +kernel⟩, "b", "2", 2,
      by decide +kernel, by decide +kernel⟩
  exact ⟨(readFromLine_line numbersOs newFlowManager _).1 (by decide +kernel),
    (readFromLine_line numbersOs newFlowManager _).2.1 (by decide +kernel)
      (.inl (by decide +kernel)),
    (readFromLine_line numbersOs newFlowManager _).2.2 (by decide +kernel) hread⟩

/-- **A line that begins with `http` is no measurement, and `readFromLine` returns `true`; and it
panics on an end without a port.** -/
theorem http_line_returns_true :
    (¬ WellFormedLine "http://localhost:3000" ∧
      newFlowManager.readFromLine numbersOs "http://localhost:3000" =
        .ok (true, newFlowManager, none)) ∧
    newFlowManager.readFromLine numbersOs "1 2 3 4 5 6 7 a-b" =
      .error (.panic "runtime error: index out of range [1] with length 1") := by
  refine ⟨⟨?_, by decide +kernel⟩, by decide +kernel⟩
  rintro ⟨ts, sj, ld, cap, ec, dr, prio, netw, src, dst, hfields, -⟩
  have hone : (split "http://localhost:3000" ' ').length = 1 := by decide +kernel
  rw [hfields] at hone
  cases hone

end Jens
