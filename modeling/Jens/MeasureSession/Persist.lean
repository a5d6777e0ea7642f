import Jens.Datatypes.Measure

/-!
# `MeasureSessionPersistor.persist`

A sample goes to the database, then to the standard output, then to a csv file.  What the three
answer to a call is `SinkErrors`; the state holds the two flags of the session that the function
reads and what each of the three has got.
-/

namespace Jens

/-- The records written to the two csv files. -/
structure CsvFiles where
  packets : List (List String) := []
  queues : List (List String) := []
  deriving DecidableEq, Repr

/-- What `persist` reads and writes. -/
structure MeasureSessionPersistor where
  /-- `session.ParentBenchmark.PrintToStdOut`. -/
  printToStdOut : Bool
  csv : Option CsvFiles
  /-- The samples the database has got. -/
  persisted : List Sample := []
  /-- The lines printed. -/
  printed : List String := []
  deriving DecidableEq, Repr

/-- The errors a call of `persist` meets. -/
structure SinkErrors where
  db : Option String := none
  printLine : Option String := none
  queueWriter : Option String := none
  packetWriter : Option String := none

/-- `strings.HasSuffix(err, "broken pipe")`. -/
def isBrokenPipe (err : String) : Bool := "broken pipe".toList.isSuffixOf err.toList

namespace MeasureSessionPersistor

/-- `PrintLine`, if the sample is printed: whether it has failed, and what it leaves. -/
def print (s : MeasureSessionPersistor) (sample : Sample) (err : Option String) :
    Bool × MeasureSessionPersistor :=
  match sample, s.printToStdOut, err with
  | .packet p, true, none => (false, { s with printed := s.printed ++ [p.printLine] })
  | .packet _, true, some err =>
    (true, if isBrokenPipe err then { s with printToStdOut := false } else s)
  | _, _, _ => (false, s)

/-- The end of `persist`: the sample goes to its csv file.  `format` is the `%+v` of the package
`fmt`. -/
def writeCsv (format : Sample → String) (s : MeasureSessionPersistor) (sample : Sample)
    (io : SinkErrors) : Option String × MeasureSessionPersistor :=
  match s.csv, sample with
  | none, _ => (none, s)
  | some csv, .queue q =>
    match io.queueWriter with
    | some err =>
      (some ("persisting DB_measure_queue (" ++ format sample ++ ") to csv file: " ++ err), s)
    | none => (none, { s with csv := some { csv with queues := csv.queues ++ [q.csvRecord] } })
  | some csv, .packet p =>
    match io.packetWriter with
    | some err =>
      (some ("persisting DB_measure_packet (" ++ format sample ++ ") to csv file: " ++ err), s)
    | none => (none, { s with csv := some { csv with packets := csv.packets ++ [p.csvRecord] } })
  | some _, .other => (none, s)

/-- `persist`: the error it returns, if any, and what it leaves. -/
def persist (format : Sample → String) (s : MeasureSessionPersistor) (sample : Sample)
    (io : SinkErrors) : Option String × MeasureSessionPersistor :=
  match io.db with
  | some err => (some ("persisting sample (" ++ format sample ++ ") to DB: " ++ err), s)
  | none =>
    match { s with persisted := s.persisted ++ [sample] }.print sample io.printLine with
    | (true, s) => (none, s)
    | (false, s) => s.writeCsv format sample io

/-- A sequence of calls. -/
def persistAll (format : Sample → String) (s : MeasureSessionPersistor)
    (calls : List (Sample × SinkErrors)) : MeasureSessionPersistor :=
  calls.foldl (fun s c => (s.persist format c.1 c.2).2) s

end MeasureSessionPersistor

end Jens
