import Jens.Lib.Text
import Jens.MeasureSession.Records

/-!
# The string of a flow

`MeasureIdStr` joins the endpoints of a flow with `-`, and the address and the port of an endpoint
with `:`.  For dotted addresses, which have neither, the string can be taken apart again
(`splitOn_measureIdStr`, `splitOn_endpointStr`), so it names one pair of endpoints only
(`measureIdStr_inj`).  An address in turn names its four bytes (`RecordArray.dotted_inj`), so two
decoded flows have one string just if their records have the same endpoints
(`RecordArray.measureIdStr_eq_iff`).
-/

namespace Jens

/-- An IPv4 address in dotted decimal notation. -/
def IsDotted (ip : String) : Prop := ∃ a b c d : UInt8, ip = RecordArray.dotted a b c d

/-- An address has digits and dots only. -/
theorem IsDotted.notMem {ip : String} (h : IsDotted ip) {c : Char} (hdigit : c.isDigit = false)
    (hdot : c ≠ '.') : c ∉ ip.toList := by
  obtain ⟨a, b, a', b', rfl⟩ := h
  have hnum (n : ℕ) : c ∉ Nat.toDigits 10 n := Text.notMem_toDigits hdigit n
  simp [RecordArray.dotted, hnum, hdot]

/-- One end of a flow as `MeasureIdStr` writes it. -/
def endpointStr (ip : String) (port : UInt16) : String := ip ++ ":" ++ toString port.toNat

theorem toList_endpointStr (ip : String) (port : UInt16) :
    (endpointStr ip port).toList = ip.toList ++ ':' :: (toString port.toNat).toList := by
  simp [endpointStr]

theorem endpointStr_notMem {ip : String} (h : IsDotted ip) (port : UInt16) {c : Char}
    (hdigit : c.isDigit = false) (hdot : c ≠ '.') (hcolon : c ≠ ':') :
    c ∉ (endpointStr ip port).toList := by
  have hip := h.notMem hdigit hdot
  have hport : c ∉ Nat.toDigits 10 port.toNat := Text.notMem_toDigits hdigit _
  rw [toList_endpointStr]
  simp [hip, hport, hcolon]

/-- The address and the port of an endpoint. -/
theorem splitOn_endpointStr {ip : String} (h : IsDotted ip) (port : UInt16) :
    (endpointStr ip port).toList.splitOn ':' = [ip.toList, (toString port.toNat).toList] := by
  rw [toList_endpointStr]
  exact Text.splitOn_pair (h.notMem rfl (by decide)) (Text.notMem_toString_nat rfl _)

theorem endpointStr_inj {ip ip' : String} {port port' : UInt16} (h : IsDotted ip)
    (h' : IsDotted ip') (heq : endpointStr ip port = endpointStr ip' port') :
    ip = ip' ∧ port = port' := by
  have hlist := congrArg String.toList heq
  rw [toList_endpointStr, toList_endpointStr] at hlist
  obtain ⟨hip, hport⟩ := Text.pair_inj (h.notMem rfl (by decide)) (h'.notMem rfl (by decide))
    (Text.notMem_toString_nat rfl _) (Text.notMem_toString_nat rfl _) hlist
  have hnat : port.toNat = port'.toNat := Text.toString_nat_inj hport
  exact ⟨String.toList_inj.mp hip, UInt16.toNat_inj.mp hnat⟩

namespace DbNetworkFlow

/-- Both addresses are dotted. -/
structure Dotted (s : DbNetworkFlow) : Prop where
  source : IsDotted s.sourceIp
  destination : IsDotted s.destinationIp

theorem toList_measureIdStr (s : DbNetworkFlow) :
    s.measureIdStr.toList = (endpointStr s.sourceIp s.sourcePort).toList
      ++ '-' :: (endpointStr s.destinationIp s.destinationPort).toList := by
  simp [measureIdStr, endpointStr]

/-- The two ends of a flow. -/
theorem splitOn_measureIdStr {s : DbNetworkFlow} (h : s.Dotted) :
    s.measureIdStr.toList.splitOn '-' = [(endpointStr s.sourceIp s.sourcePort).toList,
      (endpointStr s.destinationIp s.destinationPort).toList] := by
  rw [toList_measureIdStr]
  exact Text.splitOn_pair (endpointStr_notMem h.source _ rfl (by decide) (by decide))
    (endpointStr_notMem h.destination _ rfl (by decide) (by decide))

/-- **The string names the endpoints.** -/
theorem measureIdStr_inj {s t : DbNetworkFlow} (hs : s.Dotted) (ht : t.Dotted)
    (heq : s.measureIdStr = t.measureIdStr) :
    (s.sourceIp = t.sourceIp ∧ s.sourcePort = t.sourcePort) ∧
      s.destinationIp = t.destinationIp ∧ s.destinationPort = t.destinationPort := by
  have hlist := congrArg String.toList heq
  rw [toList_measureIdStr, toList_measureIdStr] at hlist
  obtain ⟨hsrc, hdst⟩ := Text.pair_inj (endpointStr_notMem hs.source _ rfl (by decide) (by decide))
    (endpointStr_notMem ht.source _ rfl (by decide) (by decide))
    (endpointStr_notMem hs.destination _ rfl (by decide) (by decide))
    (endpointStr_notMem ht.destination _ rfl (by decide) (by decide)) hlist
  exact ⟨endpointStr_inj hs.source ht.source (String.toList_inj.mp hsrc),
    endpointStr_inj hs.destination ht.destination (String.toList_inj.mp hdst)⟩

end DbNetworkFlow

/-! ### Decoded flows -/

namespace RecordArray

/-- What the flow of a record has. -/
theorem netFlow_of_asPacketMeasure {record : RecordArray} {id : ℤ} {pm : PacketMeasure}
    (h : record.asPacketMeasure id = .ok (some pm)) :
    pm.netFlow.Dotted ∧ pm.netFlow.sessionId = id ∧ pm.netFlow.flowId = 0 := by
  unfold asPacketMeasure at h
  split_ifs at h
  dsimp only at h
  split_ifs at h
  all_goals cases h
  all_goals exact ⟨⟨⟨_, _, _, _, rfl⟩, ⟨_, _, _, _, rfl⟩⟩, rfl, rfl⟩

/-- The four bytes of an address can be told from its text. -/
theorem dotted_inj {a b c d a' b' c' d' : UInt8} (h : dotted a b c d = dotted a' b' c' d') :
    a = a' ∧ b = b' ∧ c = c' ∧ d = d' := by
  have hdot (x : UInt8) : '.' ∉ (toString x.toNat).toList := Text.notMem_toString_nat rfl _
  have hbyte {x y : UInt8} (h : (toString x.toNat).toList = (toString y.toNat).toList) : x = y :=
    UInt8.toNat_inj.mp (Text.toString_nat_inj h)
  have htext (a b c d : UInt8) : (dotted a b c d).toList = (toString a.toNat).toList ++ '.' ::
      ((toString b.toNat).toList ++ '.' ::
        ((toString c.toNat).toList ++ '.' :: (toString d.toNat).toList)) := by
    simp [dotted]
  have hlist := congrArg String.toList h
  rw [htext, htext] at hlist
  obtain ⟨ha, hlist⟩ := Text.first_unique hlist (hdot a) (hdot a')
  obtain ⟨hb, hlist⟩ := Text.first_unique hlist (hdot b) (hdot b')
  obtain ⟨hc, hd⟩ := Text.first_unique hlist (hdot c) (hdot c')
  exact ⟨hbyte ha, hbyte hb, hbyte hc, hbyte hd⟩

/-- The bytes of the two addresses: 28 to 31 and 44 to 47. -/
def addressBytes (r : RecordArray) : List UInt8 × List UInt8 :=
  ((r.toList.drop 28).take 4, (r.toList.drop 44).take 4)

/-- The two ports: bytes 54 to 57 of a record of TCP or UDP. -/
def ports (r : RecordArray) : ℕ × ℕ :=
  if r.slice 53 1 = 6 ∨ r.slice 53 1 = 17 then (r.slice 54 2, r.slice 56 2) else (0, 0)

/-- A number of one byte. -/
theorem slice_one (r : RecordArray) (i : ℕ) (hi : i < 64) : r.slice i 1 = r[i].toNat := by
  have hdrop : (r.toList.drop i).take 1 = [r[i]] := by
    rw [List.drop_eq_getElem_cons (by simpa using hi), List.take_succ_cons, List.take_zero]
    simp
  rw [slice, hdrop, leNat, leNat, Nat.mul_zero, Nat.add_zero]

theorem leNat_lt (l : List UInt8) : leNat l < 256 ^ l.length := by
  induction l with
  | nil => exact Nat.one_pos
  | cons b l ih =>
    have hb := b.toNat_lt
    rw [leNat, List.length_cons, Nat.pow_succ]
    omega

/-- A number of two bytes. -/
theorem slice_two_lt (r : RecordArray) (i : ℕ) : r.slice i 2 < 2 ^ 16 := by
  have hlen : ((r.toList.drop i).take 2).length ≤ 2 := List.length_take_le _ _
  calc r.slice i 2 < 256 ^ ((r.toList.drop i).take 2).length := leNat_lt _
    _ ≤ 256 ^ 2 := Nat.pow_le_pow_right (by decide) hlen
    _ = 2 ^ 16 := by norm_num

/-- The address `ip` is in the four bytes from `i`. -/
def AddressAt (r : RecordArray) (i : ℕ) (ip : String) : Prop :=
  ∃ a b c d, (r.toList.drop i).take 4 = [a, b, c, d] ∧ ip = dotted a b c d

theorem addressAt_dotted (r : RecordArray) (i : ℕ) (hi : i + 3 < 64) :
    r.AddressAt i (dotted r[i] r[i + 1] r[i + 2] r[i + 3]) := by
  refine ⟨_, _, _, _, ?_, rfl⟩
  have hlen : i + 3 < r.toList.length := by simpa using hi
  rw [List.drop_eq_getElem_cons (by omega), List.take_succ_cons,
    List.drop_eq_getElem_cons (by omega), List.take_succ_cons,
    List.drop_eq_getElem_cons (by omega), List.take_succ_cons,
    List.drop_eq_getElem_cons (by omega), List.take_succ_cons, List.take_zero]
  simp

/-- Addresses are the same exactly if their bytes are. -/
theorem AddressAt.eq_iff {r r' : RecordArray} {i : ℕ} {ip ip' : String} (h : r.AddressAt i ip)
    (h' : r'.AddressAt i ip') :
    ip = ip' ↔ (r.toList.drop i).take 4 = (r'.toList.drop i).take 4 := by
  obtain ⟨a, b, c, d, hbytes, rfl⟩ := h
  obtain ⟨a', b', c', d', hbytes', rfl⟩ := h'
  rw [hbytes, hbytes']
  constructor
  · intro heq
    obtain ⟨rfl, rfl, rfl, rfl⟩ := dotted_inj heq
    rfl
  · intro heq
    simp only [List.cons.injEq, and_true] at heq
    obtain ⟨rfl, rfl, rfl, rfl⟩ := heq
    rfl

/-- The endpoints of a decoded flow. -/
theorem endpoints_of_asPacketMeasure {r : RecordArray} {id : ℤ} {pm : PacketMeasure}
    (h : r.asPacketMeasure id = .ok (some pm)) :
    r.AddressAt 28 pm.netFlow.sourceIp ∧ r.AddressAt 44 pm.netFlow.destinationIp ∧
      (pm.netFlow.sourcePort.toNat, pm.netFlow.destinationPort.toNat) = r.ports := by
  have hport (i : ℕ) : (UInt16.ofNat (r.slice i 2)).toNat = r.slice i 2 :=
    UInt16.toNat_ofNat_of_lt' (slice_two_lt r i)
  have hnext (x : UInt8) : r.slice 53 1 = x.toNat ↔ r[53] = x := by
    rw [slice_one r 53 (by decide), UInt8.toNat_inj]
  have hsrc := r.addressAt_dotted 28 (by decide)
  have hdst := r.addressAt_dotted 44 (by decide)
  have hproto : (r.slice 53 1 = 6 ∨ r.slice 53 1 = 17) ↔ (r[53] = 6 ∨ r[53] = 17) :=
    or_congr (hnext 6) (hnext 17)
  rw [ports, if_congr hproto rfl rfl]
  unfold asPacketMeasure at h
  split_ifs at h
  dsimp only at h
  split_ifs at h with hip hhas
  · cases h
  · cases h
    refine ⟨hsrc, hdst, ?_⟩
    rw [if_pos hhas]
    exact Prod.ext (hport 54) (hport 56)
  · cases h
    refine ⟨hsrc, hdst, ?_⟩
    rw [if_neg hhas]
    rfl

/-- **The string of a flow is its identity**: records have one string exactly if they have the same
address bytes and the same ports. -/
theorem measureIdStr_eq_iff {r r' : RecordArray} {id id' : ℤ} {pm pm' : PacketMeasure}
    (h : r.asPacketMeasure id = .ok (some pm)) (h' : r'.asPacketMeasure id' = .ok (some pm')) :
    pm.netFlow.measureIdStr = pm'.netFlow.measureIdStr ↔
      r.addressBytes = r'.addressBytes ∧ r.ports = r'.ports := by
  obtain ⟨hsrc, hdst, hports⟩ := endpoints_of_asPacketMeasure h
  obtain ⟨hsrc', hdst', hports'⟩ := endpoints_of_asPacketMeasure h'
  rw [addressBytes, addressBytes, Prod.mk.injEq, ← hsrc.eq_iff hsrc', ← hdst.eq_iff hdst']
  constructor
  · intro heq
    obtain ⟨⟨hsip, hsport⟩, hdip, hdport⟩ := DbNetworkFlow.measureIdStr_inj
      (netFlow_of_asPacketMeasure h).1 (netFlow_of_asPacketMeasure h').1 heq
    exact ⟨⟨hsip, hdip⟩, by rw [← hports, ← hports', hsport, hdport]⟩
  · rintro ⟨⟨hsip, hdip⟩, hport⟩
    rw [← hports, ← hports', Prod.mk.injEq] at hport
    rw [DbNetworkFlow.measureIdStr, DbNetworkFlow.measureIdStr, hsip, hdip, hport.1, hport.2]

/-- The record of a packet from the UDP port `port` of 10.0.0.1 to the port 53 of 10.0.0.2. -/
def udpRecord (port : UInt8) : RecordArray :=
  [(8, recordTypeP), (28, 10), (31, 1), (44, 10), (47, 2), (53, 17), (54, port), (56, 53)].foldl
    (fun r p => r.setIfInBounds p.1 p.2) (Vector.replicate 64 0)

/-- The flows of two ports have two strings. -/
theorem measureIdStr_udpRecord :
    (⟨0, 2, "10.0.0.1", 40, "10.0.0.2", 53, 0⟩ : DbNetworkFlow).measureIdStr ≠
      (⟨0, 2, "10.0.0.1", 41, "10.0.0.2", 53, 0⟩ : DbNetworkFlow).measureIdStr := by
  have hpm : (udpRecord 40).asPacketMeasure 2 = .ok (some ⟨0, 0, 0, 0, false, false, false, false,
      0, 0, ⟨0, 2, "10.0.0.1", 40, "10.0.0.2", 53, 0⟩⟩) := by decide +kernel
  have hpm' : (udpRecord 41).asPacketMeasure 2 = .ok (some ⟨0, 0, 0, 0, false, false, false, false,
      0, 0, ⟨0, 2, "10.0.0.1", 41, "10.0.0.2", 53, 0⟩⟩) := by decide +kernel
  intro heq
  have hports := ((measureIdStr_eq_iff hpm hpm').mp heq).2
  exact absurd hports (by decide)

end RecordArray

end Jens
