import Jens.Flowdata.Correct.Stdin
import Jens.MeasureSession.Correct.Origin
import Jens.MeasureSession.Persist

/-!
# From the kernel to the screen

A measure session of `drplay` and a `drshow` that reads its output.  The samples that the persistor
is handed are of flows decoded from records (`handed_of_records`), so they print as lines that
`drshow` reads back, and what it shows in the end are these samples (`session_shown`).
-/

namespace Jens

open Steps

namespace MeasureSessionPersistor

/-- A session that prints and writes no csv files. -/
def printing : MeasureSessionPersistor := { printToStdOut := true, csv := none }

theorem persist_noErrors (format : Sample → String) {s : MeasureSessionPersistor}
    (hprint : s.printToStdOut = true) (hcsv : s.csv = none) (x : Sample) :
    (s.persist format x {}).2.printToStdOut = true ∧ (s.persist format x {}).2.csv = none ∧
      (s.persist format x {}).2.printed =
        s.printed ++ ((Sample.asPacket x).map DbMeasurePacket.printLine).toList := by
  cases x <;> simp [persist, print, writeCsv, hprint, hcsv, Sample.asPacket]

/-- As long as no sink fails, every packet sample is printed. -/
theorem printed_persistAll (format : Sample → String) (xs : List Sample) :
    (printing.persistAll format (xs.map fun x => (x, {}))).printed =
      (xs.filterMap Sample.asPacket).map DbMeasurePacket.printLine := by
  have key : ∀ (xs : List Sample) (s : MeasureSessionPersistor), s.printToStdOut = true →
      s.csv = none → (s.persistAll format (xs.map fun x => (x, {}))).printed =
        s.printed ++ (xs.filterMap Sample.asPacket).map DbMeasurePacket.printLine := by
    intro xs
    induction xs with
    | nil => exact fun s _ _ => (List.append_nil _).symm
    | cons x xs ih =>
      intro s hprint hcsv
      obtain ⟨hprint', hcsv', hprinted⟩ := persist_noErrors format hprint hcsv x
      have hrest := ih (s.persist format x {}).2 hprint' hcsv'
      rw [hprinted, List.append_assoc] at hrest
      refine hrest.trans (congrArg (s.printed ++ ·) ?_)
      cases hx : Sample.asPacket x <;> simp [hx]
  exact key xs printing rfl rfl

end MeasureSessionPersistor

/-- A packet is decoded to a flow with dotted addresses. -/
theorem SessionAction.dotted_of_packet {p : SessionParams} {a : SessionAction} {m : PacketMeasure}
    (h : a.packet p = some m) : m.netFlow.Dotted := by
  cases a with
  | poll e =>
    cases e with
    | record r =>
      simp only [packet, PollEvent.packet, PollPc.onRecord] at h
      split_ifs at h
      · split at h
        · rename_i m' hm
          obtain rfl := Option.some.inj h
          exact (RecordArray.netFlow_of_asPacketMeasure hm).1
        · cases h
      · cases h
      · cases h
    | _ => cases h
  | _ => cases h

/-- The packet samples handed to the persistor print as lines that are read back. -/
theorem printable_of_handed {capA capP : ℕ} {capacity : UInt64} {p : SessionParams}
    {acts : List SessionAction} {s : MeasureSession capA capP}
    (hrun : run (MeasureSession.step p) (MeasureSession.init capacity) acts = some s)
    (htime : ∀ q, .packet q ∈ s.persistor.handed → q.time.toNat < 2 ^ 53) :
    ∀ q ∈ s.persistor.handed.filterMap Sample.asPacket, Printable q := by
  intro q hq
  obtain ⟨x, hx, hxq⟩ := List.mem_filterMap.mp hq
  cases x with
  | packet q' =>
    obtain rfl := Option.some.inj hxq
    obtain ⟨m, hm, hid⟩ := MeasureSession.handed_of_records capA capP capacity p acts s hrun q' hx
    obtain ⟨a, -, ha⟩ := List.mem_filterMap.mp hm
    exact ⟨htime q' hx, m.netFlow, SessionAction.dotted_of_packet ha, hid⟩
  | _ => cases hxq

/-- **What the kernel records is what `drshow` shows.**  Take any run of a measure session, whose
samples have times that a float can hold, and any sinks that do not fail.  `drshow` accepts what is
printed then, also behind lines that are not the heading; and however it is scheduled, once it has
read everything and is done it has one flow for each flow of the samples that the persistor was
handed, with the data points of its samples, each once. -/
theorem session_shown (capA capP : ℕ) (capacity : UInt64) (p : SessionParams)
    (acts : List SessionAction) (s : MeasureSession capA capP)
    (hrun : run (MeasureSession.step p) (MeasureSession.init capacity) acts = some s)
    (htime : ∀ q, .packet q ∈ s.persistor.handed → q.time.toNat < 2 ^ 53)
    (format : Sample → String) {os : Os} (hos : os.ReadsNumbers) (cv : F64 → Int64)
    {before : List String} (hbefore : ∀ l ∈ before, '\n' ∉ l.toList ∧ fields l ≠ constHeading) :
    ∃ rest, validateDrpPlayerPipedIn
        ((String.join (before.map fun l => l ++ "\n") ++
          drplayOutput (MeasureSessionPersistor.printing.persistAll format
            (s.persistor.handed.map fun x => (x, {}))).printed).toList.map Sum.inl) = (rest, true) ∧
      ∀ (acts' : List ReadAction) (t : ReadLoop),
        run (ReadLoop.step os cv) ReadLoop.init acts' = some t →
        acts'.filterMap ReadAction.lineRead = linesRead (mainStdinReadLoop os rest) →
        t.pc = .reading → (∀ r ∈ t.routines, r.pc = .done) →
        Shown (s.persistor.handed.filterMap Sample.asPacket) t.man := by
  rw [MeasureSessionPersistor.printed_persistAll]
  exact drplayOutput_shown hos cv hbefore (printable_of_handed hrun htime)

/-- Two packets, the sample made of the second, and the persistor that takes it. -/
def sampledActions : List SessionAction :=
  .poll .opened :: MeasureSession.pollPacketActions ++ MeasureSession.pollPacketActions ++
    [.aggregate (.persistence true), .aggregate .tick,
      .aggregate (.recv MeasureSession.packetOfRecord),
      .aggregate (.recv MeasureSession.packetOfRecord), .aggregate (.flowPersisted 1 false 0),
      .aggregate .empty, .aggregate (.next 0), .persist (.persistence true), .persist .tick,
      .handSample]

/-- A session with one sample. -/
theorem session_shown_sampled :
    ∃ s : MeasureSession 2 1,
      run (MeasureSession.step ⟨0, 0, false⟩) (MeasureSession.init 0) sampledActions = some s ∧
      s.persistor.handed.length = 1 ∧
      ∃ rest, validateDrpPlayerPipedIn
          ((String.join (["[sudo] password for jens:"].map fun l => l ++ "\n") ++
            drplayOutput (MeasureSessionPersistor.printing.persistAll (fun _ => "")
              (s.persistor.handed.map fun x => (x, {}))).printed).toList.map Sum.inl) =
          (rest, true) ∧
        ∀ (acts' : List ReadAction) (t : ReadLoop),
          run (ReadLoop.step numbersOs fun _ => 0) ReadLoop.init acts' = some t →
          acts'.filterMap ReadAction.lineRead = linesRead (mainStdinReadLoop numbersOs rest) →
          t.pc = .reading → (∀ r ∈ t.routines, r.pc = .done) →
          Shown (s.persistor.handed.filterMap Sample.asPacket) t.man := by
  refine ⟨_, rfl, rfl, session_shown 2 1 0 ⟨0, 0, false⟩ sampledActions _ rfl ?_ (fun _ => "")
    readsNumbers_numbersOs (fun _ => 0) (by decide +kernel)⟩
  intro q hq
  obtain rfl := Sample.packet.inj (List.mem_singleton.mp hq)
  show (0 : UInt64).toNat < 2 ^ 53
  decide

end Jens
