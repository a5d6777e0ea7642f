import Jens.MeasureSession.Persist
import Mathlib.Data.List.Basic

/-!
# Which packets come to the csv file

A packet that cannot be printed is not written to the csv file, whatever the error is.  A broken
pipe stops the printing, and the packets after it are written again.  So the file has all of the
packets exactly if all of them could be printed (`sinksApart_iff`).
-/

namespace Jens

namespace MeasureSessionPersistor

/-- A packet and the error of its `PrintLine`, if it is called. -/
abbrev Print := DbMeasurePacket × Option String

/-- The call of `persist`, where the database and the csv file have no errors. -/
def Print.call (c : Print) : Sample × SinkErrors := (.packet c.1, { printLine := c.2 })

/-- The packets that come to the csv file. -/
def written : Bool → List Print → List DbMeasurePacket
  | _, [] => []
  | false, c :: calls => c.1 :: written false calls
  | true, (p, none) :: calls => p :: written true calls
  | true, (_, some err) :: calls => written (!isBrokenPipe err) calls

/-- A broken pipe is met. -/
def breaks (calls : List Print) : Bool := calls.any fun c => c.2.any isBrokenPipe

variable {format : Sample → String} {s : MeasureSessionPersistor} {csv : CsvFiles}
  {calls : List Print}

/-! ### One call -/

theorem persist_of_notPrinted (p : DbMeasurePacket) (err : Option String) (hcsv : s.csv = some csv)
    (hprint : s.printToStdOut = false) :
    s.persist format (.packet p) { printLine := err } =
      (none, { s with
        persisted := s.persisted ++ [.packet p]
        csv := some { csv with packets := csv.packets ++ [p.csvRecord] } }) := by
  simp [persist, print, writeCsv, hcsv, hprint]

theorem persist_of_printed (p : DbMeasurePacket) (hcsv : s.csv = some csv)
    (hprint : s.printToStdOut = true) :
    s.persist format (.packet p) {} =
      (none, { s with
        persisted := s.persisted ++ [.packet p]
        printed := s.printed ++ [p.printLine]
        csv := some { csv with packets := csv.packets ++ [p.csvRecord] } }) := by
  simp [persist, print, writeCsv, hcsv, hprint]

theorem persist_of_printError (p : DbMeasurePacket) (err : String)
    (hprint : s.printToStdOut = true) :
    s.persist format (.packet p) { printLine := some err } =
      (none, { s with
        persisted := s.persisted ++ [.packet p]
        printToStdOut := !isBrokenPipe err }) := by
  cases h : isBrokenPipe err <;> simp [persist, print, hprint, h]

/-! ### A sequence of calls -/

theorem persistAll_cons (c : Print) (calls : List Print) :
    s.persistAll format ((c :: calls).map Print.call) =
      (s.persist format (.packet c.1) { printLine := c.2 }).2.persistAll format
        (calls.map Print.call) := rfl

/-- What a sequence of calls leaves in the csv file and in the database. -/
theorem persistAll_csv (format : Sample → String) (calls : List Print) (hcsv : s.csv = some csv) :
    (s.persistAll format (calls.map Print.call)).csv = some { csv with
        packets := csv.packets ++ (written s.printToStdOut calls).map DbMeasurePacket.csvRecord } ∧
      (s.persistAll format (calls.map Print.call)).persisted =
        s.persisted ++ calls.map fun c => .packet c.1 := by
  induction calls generalizing s csv with
  | nil => simp [persistAll, written, hcsv]
  | cons c calls ih =>
    obtain ⟨p, err⟩ := c
    rw [persistAll_cons]
    cases hprint : s.printToStdOut with
    | false =>
      rw [persist_of_notPrinted p err hcsv hprint]
      obtain ⟨h, h'⟩ := ih (s := { s with
        persisted := s.persisted ++ [.packet p]
        csv := some { csv with packets := csv.packets ++ [p.csvRecord] } }) rfl
      rw [h, h']
      simp [written, hprint]
    | true =>
      cases err with
      | none =>
        rw [persist_of_printed p hcsv hprint]
        obtain ⟨h, h'⟩ := ih (s := { s with
          persisted := s.persisted ++ [.packet p]
          printed := s.printed ++ [p.printLine]
          csv := some { csv with packets := csv.packets ++ [p.csvRecord] } }) rfl
        rw [h, h']
        simp [written, hprint]
      | some err =>
        rw [persist_of_printError p err hprint]
        obtain ⟨h, h'⟩ := ih (s := { s with
          persisted := s.persisted ++ [.packet p]
          printToStdOut := !isBrokenPipe err }) hcsv
        rw [h, h']
        simp [written]

/-- Only a broken pipe turns the printing off. -/
theorem persistAll_printToStdOut :
    (s.persistAll format (calls.map Print.call)).printToStdOut =
      (s.printToStdOut && !breaks calls) := by
  induction calls generalizing s with
  | nil => simp [persistAll, breaks]
  | cons c calls ih =>
    obtain ⟨p, err⟩ := c
    rw [persistAll_cons, ih, breaks, breaks, List.any_cons]
    have hcsv : ∀ t : MeasureSessionPersistor,
        (t.writeCsv format (.packet p) { printLine := err }).2.printToStdOut = t.printToStdOut := by
      intro t
      cases hcsv : t.csv <;> simp [writeCsv, hcsv]
    cases hprint : s.printToStdOut with
    | false =>
      have hoff : (s.persist format (.packet p) { printLine := err }).2.printToStdOut = false := by
        simp [persist, print, hprint, hcsv]
      rw [hoff, Bool.false_and, Bool.false_and]
    | true =>
      cases err with
      | none =>
        have hon : (s.persist format (.packet p) {}).2.printToStdOut = true := by
          simp [persist, print, hprint, hcsv]
        rw [hon, Option.any_none, Bool.false_or]
      | some err =>
        rw [persist_of_printError p err hprint, Option.any_some, Bool.not_or, Bool.true_and]

/-! ### All packets -/

theorem length_written_le (b : Bool) (calls : List Print) :
    (written b calls).length ≤ calls.length := by
  induction calls generalizing b with
  | nil => simp [written]
  | cons c calls ih =>
    obtain ⟨p, err⟩ := c
    cases b with
    | false =>
      have := ih false
      simp only [written, List.length_cons]
      omega
    | true =>
      cases err with
      | none =>
        have := ih true
        simp only [written, List.length_cons]
        omega
      | some err =>
        have := ih (!isBrokenPipe err)
        simp only [written, List.length_cons]
        omega

/-- A packet that could not be printed is missing. -/
theorem length_written_eq_iff :
    (written true calls).length = calls.length ↔ ∀ c ∈ calls, c.2 = none := by
  induction calls with
  | nil => simp [written]
  | cons c calls ih =>
    obtain ⟨p, err⟩ := c
    cases err with
    | none => simp [written, ih]
    | some err =>
      have hle := length_written_le (!isBrokenPipe err) calls
      simp only [written, List.length_cons, List.forall_mem_cons, reduceCtorEq, false_and,
        iff_false]
      omega

theorem written_of_none (h : ∀ c ∈ calls, c.2 = none) :
    written true calls = calls.map Prod.fst := by
  induction calls with
  | nil => rfl
  | cons c calls ih =>
    obtain ⟨p, err⟩ := c
    obtain rfl : err = none := h _ List.mem_cons_self
    rw [written, List.map_cons, ih fun c hc => h c (List.mem_cons_of_mem _ hc)]

/-- **One sink does not lose the packets of another**: all packets come to the csv file and to the
database once and in order, and a broken pipe turns the printing off. -/
structure SinksApart (format : Sample → String) (s : MeasureSessionPersistor) (csv : CsvFiles)
    (calls : List Print) : Prop where
  csv : (s.persistAll format (calls.map Print.call)).csv =
    some { csv with packets := csv.packets ++ calls.map fun c => c.1.csvRecord }
  persisted : (s.persistAll format (calls.map Print.call)).persisted =
    s.persisted ++ calls.map fun c => .packet c.1
  printing : (s.persistAll format (calls.map Print.call)).printToStdOut = !breaks calls

/-- **They stand apart exactly if every packet can be printed.** -/
theorem sinksApart_iff (format : Sample → String) (calls : List Print) (hcsv : s.csv = some csv)
    (hprint : s.printToStdOut = true) :
    SinksApart format s csv calls ↔ ∀ c ∈ calls, c.2 = none := by
  obtain ⟨hfile, hdb⟩ := persistAll_csv format calls hcsv
  rw [hprint] at hfile
  constructor
  · intro h
    have hrows := congrArg (Option.map fun csv => csv.packets.length) (hfile.symm.trans h.csv)
    simp only [Option.map_some, List.length_append, List.length_map, Option.some.injEq] at hrows
    rw [← length_written_eq_iff]
    omega
  · intro h
    refine ⟨?_, hdb, ?_⟩
    · rw [hfile, written_of_none h, List.map_map]
      rfl
    · rw [persistAll_printToStdOut, hprint, Bool.true_and]

/-- A packet of the time `time`. -/
def packetAt (time : UInt64) : DbMeasurePacket := ⟨time, 1, 100, 0, 0, 7, 1000, "a:1-b:2", 0⟩

/-- Two packets that are printed. -/
theorem sinksApart_twoPackets :
    SinksApart (fun _ => "") { printToStdOut := true, csv := some {} } {}
      [(packetAt 1, none), (packetAt 2, none)] :=
  (sinksApart_iff _ _ rfl rfl).mpr (by simp)

/-- **Three packets, and a broken pipe at the second.**  The second is not in the csv file. -/
theorem packet_lost_with_pipe :
    (persistAll (fun _ => "") { printToStdOut := true, csv := some {} }
        ([(packetAt 1, none), (packetAt 2, some "write /dev/stdout: broken pipe"),
          (packetAt 3, none)].map Print.call)).csv =
      some { packets := [(packetAt 1).csvRecord, (packetAt 3).csvRecord] } ∧
    ¬ SinksApart (fun _ => "") { printToStdOut := true, csv := some {} } {}
      [(packetAt 1, none), (packetAt 2, some "write /dev/stdout: broken pipe"),
        (packetAt 3, none)] := by
  refine ⟨rfl, fun h => ?_⟩
  have hfile := congrArg (Option.map fun csv => csv.packets.length) h.csv
  exact absurd hfile (by decide)

end MeasureSessionPersistor

end Jens
