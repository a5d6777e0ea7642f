import Jens.Lib.Serial
import Jens.Lib.Steps
import Jens.Lib.Climb
import Jens.Lib.Chan
import Jens.Lib.LittleEndian
import Jens.Lib.F64
import Jens.Lib.F64Bits
import Jens.Lib.Outcome
import Jens.Lib.Json
import Jens.Lib.JsonRoundTrip
import Jens.Lib.FirstSet
import Jens.Lib.Keyed
import Jens.Lib.Fold
import Jens.Lib.Modify
import Jens.Lib.Text
import Jens.Lib.Ascii
import Jens.Lib.Table
import Jens.Lib.Delimited
import Jens.Util.Math
import Jens.Util.ObservedRoutines
import Jens.Util.Os
import Jens.Util.Strconv
import Jens.Util.Strings
import Jens.Util.Net
import Jens.Util.Gateway
import Jens.Util.Correct.Strings
import Jens.Util.Correct.TagNames
import Jens.Util.Correct.Gateway
import Jens.Datatypes.Measure
import Jens.Drp.PatternIterator
import Jens.Drp.Correct.PatternIterator
import Jens.Drp.Pattern
import Jens.Drp.PatternProvider
import Jens.Drp.Correct.Comments
import Jens.Drp.Correct.PatternProvider
import Jens.Drp.Correct.Statistics
import Jens.Drp.Correct.SetData
import Jens.Drp.Correct.Calls
import Jens.Drp.Correct.Looping
import Jens.Drp.Correct.Scale
import Jens.Drp.Correct.Thresholds
import Jens.Drp.Correct.Header
import Jens.Datatypes.Session
import Jens.Datatypes.UniqueName
import Jens.Datatypes.Correct.UniqueName
import Jens.Datatypes.Benchmark
import Jens.Datatypes.Correct.Benchmark
import Jens.TrafficControl.Params
import Jens.TrafficControl.Host
import Jens.TrafficControl.TrafficControl
import Jens.TrafficControl.Correct.Host
import Jens.TrafficControl.Correct.TrafficControl
import Jens.TrafficControl.Correct.Params
import Jens.Player.ChangeLoop
import Jens.Player.Player
import Jens.Player.InitTc
import Jens.Player.Start
import Jens.Player.Correct.Player
import Jens.Player.Correct.ChangeLoop
import Jens.Player.Correct.Start
import Jens.MeasureSession.Records
import Jens.Datatypes.Correct.Measure
import Jens.MeasureSession.AggregateMeasure
import Jens.MeasureSession.Aggregator
import Jens.MeasureSession.Persistor
import Jens.MeasureSession.Persist
import Jens.MeasureSession.Poll
import Jens.MeasureSession.Session
import Jens.MeasureSession.Correct.AggregateMeasure
import Jens.MeasureSession.Correct.Aggregator
import Jens.MeasureSession.Correct.Flush
import Jens.MeasureSession.Correct.Isolation
import Jens.MeasureSession.Correct.Carried
import Jens.MeasureSession.Correct.Divisors
import Jens.MeasureSession.Correct.Persistor
import Jens.MeasureSession.Correct.Parts
import Jens.MeasureSession.Correct.Persist
import Jens.MeasureSession.Correct.Session
import Jens.MeasureSession.Correct.Room
import Jens.MeasureSession.Correct.Pipeline
import Jens.MeasureSession.Correct.Origin
import Jens.Psql.Commit
import Jens.Psql.Correct.Commit
import Jens.Psql.Flows
import Jens.Psql.Stored
import Jens.Psql.Tables
import Jens.Psql.Correct.FlowIds
import Jens.Psql.Correct.Flows
import Jens.Psql.Correct.Stored
import Jens.Psql.Correct.Tables
import Jens.Psql.Correct.FlowFailures
import Jens.Persistence.Generic
import Jens.Persistence.Stores
import Jens.Persistence.Correct.Generic
import Jens.Player.Drplay
import Jens.Player.Correct.Drplay
import Jens.Jsonp.Settings
import Jens.Jsonp.BenchmarkDefinition
import Jens.Jsonp.Correct.Settings
import Jens.Jsonp.Correct.BenchmarkDefinition
import Jens.Jsonp.Correct.Validation
import Jens.Jsonp.Correct.Fidelity
import Jens.Jsonp.Correct.Marshal
import Jens.Jsonp.Correct.Wrapper
import Jens.Jsonp.Correct.PatternHash
import Jens.Flowdata.FlowT
import Jens.Flowdata.FlowManager
import Jens.Flowdata.ReadLoop
import Jens.Flowdata.Stdin
import Jens.Flowdata.Eligibility
import Jens.Flowdata.Correct.FlowManager
import Jens.Flowdata.Correct.ReadFromLine
import Jens.Flowdata.Correct.Export
import Jens.Flowdata.Correct.ReadLoop
import Jens.Flowdata.Correct.Appends
import Jens.Flowdata.Correct.Order
import Jens.Flowdata.Correct.Eligibility
import Jens.Flowdata.Correct.Navigation
import Jens.Flowdata.Correct.Stdin
import Jens.Flowdata.Correct.EndToEnd
import Jens.Widgets.ListText
import Jens.Widgets.Charts
import Jens.Widgets.Correct.ListText
import Jens.Widgets.Correct.Charts
import Jens.Benchmark.Play
import Jens.Benchmark.Correct.Play
import Jens.Modes.Pipe
import Jens.Modes.Correct.Moves
import Jens.Modes.Correct.Waiting
import Jens.Modes.Correct.Progress
import Jens.Modes.Correct.Settles
import Jens.Modes.Correct.Shown
import Jens.Modes.Correct.Updates
import Jens.Modes.Correct.Layout
import Jens.Player.Correct.ControlFile
import Jens.Drp.PatternList
import Jens.Drp.Correct.PatternList
import Jens.Modes.Folder
import Jens.Modes.Correct.Folder
