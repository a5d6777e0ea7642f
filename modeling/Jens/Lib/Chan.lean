import Mathlib.Data.List.Basic
import Mathlib.Tactic.Common

/-!
# Bounded channels

`Chan α cap` is a first-in-first-out channel with room for `cap` values.  A send on a closed channel
panics and a send on a full one blocks; a receive gives the oldest value, says that the channel is
closed once nothing is left in it, and blocks otherwise; closing twice panics.  The bound on what is
stored is a field, so no operation can break it.

A channel with `cap = 0` stores nothing: there a send and a receive meet, which is for the system
around the channel to say.
-/

structure Chan (α : Type*) (cap : ℕ) where
  buf : List α
  closed : Bool
  length_le : buf.length ≤ cap
  deriving DecidableEq

namespace Chan

variable {α : Type*} {cap : ℕ}

/-- The outcome of a send. -/
inductive Sending (α : Type*) (cap : ℕ)
  | sent (c : Chan α cap)
  | blocks
  /-- The channel is closed. -/
  | panics

/-- The outcome of a receive. -/
inductive Receiving (α : Type*) (cap : ℕ)
  | value (a : α) (c : Chan α cap)
  /-- Closed, and nothing left. -/
  | closed
  | blocks

/-- A new channel. -/
def make : Chan α cap := ⟨[], false, Nat.zero_le _⟩

/-- There is no room for another value. -/
def Full (c : Chan α cap) : Prop := c.buf.length = cap

instance (c : Chan α cap) : Decidable c.Full := inferInstanceAs (Decidable (_ = _))

def send (c : Chan α cap) (a : α) : Sending α cap :=
  if c.closed then .panics
  else if h : c.buf.length < cap then
    .sent ⟨c.buf ++ [a], c.closed, by rw [List.length_append, List.length_singleton]; omega⟩
  else .blocks

def recv (c : Chan α cap) : Receiving α cap :=
  match h : c.buf with
  | a :: rest =>
    .value a ⟨rest, c.closed, by have := c.length_le; rw [h, List.length_cons] at this; omega⟩
  | [] => if c.closed then .closed else .blocks

/-- `close`; `none` is the panic on a closed channel. -/
def close (c : Chan α cap) : Option (Chan α cap) :=
  if c.closed then none else some { c with closed := true }

theorem send_eq_sent {c c' : Chan α cap} {a : α} (h : c.send a = .sent c') :
    c.closed = false ∧ c.buf.length < cap ∧ c'.buf = c.buf ++ [a] ∧ c'.closed = false := by
  unfold send at h
  split_ifs at h with hc hlt
  obtain rfl := Sending.sent.inj h
  have hopen : c.closed = false := by simpa using hc
  exact ⟨hopen, hlt, rfl, hopen⟩

theorem send_eq_panics {c : Chan α cap} {a : α} : c.send a = .panics ↔ c.closed = true := by
  unfold send
  split_ifs with hc <;> simp [hc]

theorem recv_eq_value {c c' : Chan α cap} {a : α} (h : c.recv = .value a c') :
    c.buf = a :: c'.buf ∧ c'.closed = c.closed := by
  unfold recv at h
  split at h
  · rename_i b rest hb
    obtain ⟨rfl, rfl⟩ := Receiving.value.inj h
    exact ⟨hb, rfl⟩
  · split_ifs at h

theorem recv_eq_closed {c : Chan α cap} (h : c.recv = .closed) : c.buf = [] ∧ c.closed = true := by
  unfold recv at h
  split at h
  · cases h
  · rename_i hb
    split_ifs at h with hc
    exact ⟨hb, hc⟩

theorem close_eq_some {c c' : Chan α cap} (h : c.close = some c') :
    c.closed = false ∧ c'.buf = c.buf ∧ c'.closed = true := by
  unfold close at h
  split_ifs at h with hc
  obtain rfl := Option.some.inj h
  exact ⟨by simpa using hc, rfl, rfl⟩

theorem close_eq_none {c : Chan α cap} : c.close = none ↔ c.closed = true := by
  unfold close
  split_ifs with hc <;> simp [hc]

end Chan
