import Jens.Player.InitTc
import Jens.TrafficControl.TrafficControl

/-!
# Starting a session, and who starts it

`DrpPlayer.Start` seen from the host: of what it does only `initTC` can fail, and only `initTC`
executes commands.  `drplayMain` and `playSession` are its two callers, `drplay`'s `main` and the
benchmark's `play_session`, each up to the moment it has given the session up or seen it through.
-/

namespace Jens.DbSession

/-- The nft options of a session. -/
def nftParams (s : DbSession) : NftStartParams := ⟨s.l4sEnablePreMarking, s.signalDrpStart⟩

section Host

variable {ι : Type} (answers : Command → Bool) (me : ι) (cv : F64.FloatConv)

/-- `Start`.  The outcome of the first `ChangeTo` is ignored; the goroutines launched after the
warm-up report their errors elsewhere. -/
def start (s : DbSession) : HostM ι TrafficControl :=
  (newTrafficControl s.dev).init answers me (s.initTc cv) s.nftParams

/-- `Wait`, from the moment the goroutines are done: `exit_clean` logs the error of `Close`. -/
def wait (tc : TrafficControl) : HostM ι Unit := tc.close answers me

/-- `main` of `drplay`, from `Persist` on; an error is the exit of the process.  `answersExit` are
the answers to the commands of `Wait`. -/
def drplayMain (answersExit : Command → Bool) (persisted : Bool) (s : DbSession) :
    HostM ι Unit := do
  if !persisted then throw .persist
  let tc ← s.start answers me cv
  wait answersExit me tc

/-- `Benchmark.play_session`; an error is returned to `Play`, which goes on to the next session. -/
def playSession (answersExit : Command → Bool) (persisted : Bool) (s : DbSession) :
    HostM ι Unit := do
  if !persisted then throw .persist
  let tc ← s.start answers me cv
  wait answersExit me tc

end Host

end Jens.DbSession
