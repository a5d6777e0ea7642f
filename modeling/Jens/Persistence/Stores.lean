import Jens.Persistence.Generic

/-!
# The stores

`Init` of the two stores, `psql.DataBase` and `mock.Database`.  Each step of the first assigns a
handle and may fail; what was assigned before stays assigned.
-/

namespace Jens

/-- What `DataBase.Init` meets, as the errors of its calls. -/
structure Connection where
  /-- `sql.Open`, at a data source. -/
  openDb : String → Option String := fun _ => none
  ping : Option String := none
  beginMq : Option String := none
  beginMp : Option String := none
  prepareQueue : Option String := none
  preparePacket : Option String := none
  prepareSessionstats : Option String := none

/-- The handles of `psql.DataBase`: those that are not `nil`. -/
structure PsqlHandles where
  db : Bool := false
  txMq : Bool := false
  txMp : Bool := false
  stmtQueue : Bool := false
  stmtPacket : Bool := false
  stmtSessionstats : Bool := false
  deriving DecidableEq

namespace PsqlHandles

variable (c : Connection)

/-- `if err != nil { return err }`. -/
def check : Option String → EStateM String PsqlHandles Unit
  | some err => throw err
  | none => pure ()

/-- The same after `handle, err = call()`, where the handle of a failed call is `nil`. -/
def assign (err : Option String) (set : Bool → PsqlHandles → PsqlHandles) :
    EStateM String PsqlHandles Unit := do
  modify (set err.isNone)
  check err

/-- `prep_bulk_stmts`. -/
def prepBulkStmts : EStateM String PsqlHandles Unit := do
  assign c.beginMq fun b s => { s with txMq := b }
  assign c.beginMp fun b s => { s with txMp := b }
  assign c.prepareQueue fun b s => { s with stmtQueue := b }
  assign c.preparePacket fun b s => { s with stmtPacket := b }

/-- `prep_special_stmts`. -/
def prepSpecialStmts : EStateM String PsqlHandles Unit :=
  assign c.prepareSessionstats fun b s => { s with stmtSessionstats := b }

/-- `DataBase.Init`; without a login it connects to nothing. -/
def init : Option Login → EStateM String PsqlHandles Unit
  | none => pure ()
  | some login => do
    check ((c.openDb login.infoStr).map ("could not establish connection to DB: " ++ ·))
    check c.ping
    modify fun s => { s with db := true }
    prepBulkStmts c
    prepSpecialStmts c

/-- The handles of a new store after `Init`, whether or not it failed. -/
def afterInit (login : Option Login) : PsqlHandles :=
  match init c login {} with
  | .ok _ s => s
  | .error _ s => s

end PsqlHandles

/-- `Init` of `mock.Database`. -/
def mockInit : Option Login → Option String
  | some _ => none
  | none => some "no login supplied"

/-- The stores of a process, by kind and number. -/
inductive Store
  /-- A `psql.DataBase`. -/
  | psql (n : ℕ)
  /-- A `mock.Database`. -/
  | mock (n : ℕ)
  deriving DecidableEq, Repr

/-- `Init` of a store that `Init` was not called on before. -/
def Store.init (c : Connection) : Store → Option Login → Option String
  | .psql _, login =>
    match PsqlHandles.init c login {} with
    | .ok _ _ => none
    | .error e _ => some e
  | .mock _, login => mockInit login

end Jens
