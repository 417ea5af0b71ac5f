import AiboosterEngine.GoSem.Map
import AiboosterEngine.GoSem.Threads

/-!
# Rejected responses

`experimental/cachefile/rdrc.go`: a rejection is kept in the file until it expires,
and beside it while an asynchronous save is on its way. A load that finds an expired
entry deletes it in a second transaction. Transactions and accesses of the map are
atomic and succeed.
-/

namespace AiboosterEngine.Rdrc
open GoSem Threads

def second : Nat := 1000000000

/-- A key is a transport, a name and a type; the times are in nanoseconds, those in the file in
seconds. -/
structure Shared (κ : Type) where
  now : Nat
  /-- The values are all true. -/
  saveRDRC : Map κ Unit := .empty
  db : Map κ Nat := .empty

inductive Place (κ : Type) where
  | idle
  | view (key : κ)
  | deleting (key : κ)
  /-- In the goroutine of an asynchronous save. -/
  | saving (key : κ)
  | clearing (key : κ)
  | loaded (rejected : Bool)
  deriving DecidableEq

inductive Action (κ : Type) where
  | loadRDRC (key : κ)
  | saveRDRC (key : κ)
  | saveRDRCAsync (key : κ)
  | go
  | wait (time : Nat)

section
variable {τ κ : Type} [DecidableEq κ] (rdrcTimeout : Nat)

def Shared.put (s : Shared κ) (key : κ) : Shared κ :=
  { s with db := s.db.set key ((s.now + rdrcTimeout) / second) }

def act (_ : τ) (s : Shared κ) : Place κ → Action κ → Option (Shared κ × Place κ)
  | place, .wait time => some ({ s with now := s.now + time }, place)
  | .idle, .loadRDRC key =>
    match s.saveRDRC.get key with
    | some _ => some (s, .loaded true)
    | none => some (s, .view key)
  | .view key, .go =>
    match s.db.get key with
    | none => some (s, .loaded false)
    | some expiresAt => some (s, if expiresAt * second < s.now then .deleting key else .loaded true)
  | .deleting key, .go => some ({ s with db := s.db.delete key }, .loaded false)
  | .idle, .saveRDRC key => some (s.put rdrcTimeout key, .idle)
  | .idle, .saveRDRCAsync key => some ({ s with saveRDRC := s.saveRDRC.set key () }, .saving key)
  | .saving key, .go => some (s.put rdrcTimeout key, .clearing key)
  | .clearing key, .go => some ({ s with saveRDRC := s.saveRDRC.delete key }, .idle)
  | _, _ => none

variable (key : κ)

/-- What a step does to what is kept for a key. -/
structure Does (s : Shared κ) (place : Place κ) (action : Action κ) (s' : Shared κ) : Prop where
  now : s.now ≤ s'.now
  db : s'.db.get key = s.db.get key ∨ s'.db.get key = some ((s.now + rdrcTimeout) / second) ∨
    (place = .deleting key ∧ action = .go)
  saveRDRC : s'.saveRDRC.get key = s.saveRDRC.get key ∨ s'.saveRDRC.get key = some () ∨
    (place = .clearing key ∧ action = .go)

variable {rdrcTimeout}

section
variable {t : τ} {s s' : Shared κ} {place place' : Place κ} {action : Action κ}
  (acted : act rdrcTimeout t s place action = some (s', place'))
include acted

theorem does_of_act : Does rdrcTimeout key s place action s' := by
  unfold act Shared.put at acted
  constructor
  all_goals
    generalize second = unit at acted ⊢
    split at acted <;> grind [Map.get_set, Map.get_delete]

theorem idle_of_call (call : action ≠ .go) (moves : ∀ time, action ≠ .wait time) :
    place = .idle := by
  unfold act at acted
  split at acted <;> grind

end

variable [DecidableEq τ] (rdrcTimeout) (t : τ)

/-- The step does not delete the entry of the key, nor end another asynchronous save of it. -/
def Undisturbed (s : Threads τ (Shared κ) (Place κ)) (a : τ × Action κ) : Prop :=
  a.2 = .go → s.pc a.1 ≠ .deleting key ∧ (a.1 ≠ t → s.pc a.1 ≠ .clearing key)

def InFile (since : Nat) (s : Shared κ) : Prop :=
  since ≤ s.now ∧ ∃ expiresAt, s.db.get key = some expiresAt ∧
    (since + rdrcTimeout) / second ≤ expiresAt

/-- The rejection is in the file, or the thread is about to put it there. -/
def Recorded (since : Nat) (s : Threads τ (Shared κ) (Place κ)) : Prop :=
  InFile rdrcTimeout key since s.shared ∨
    (since ≤ s.shared.now ∧ s.pc t = .saving key ∧ s.shared.saveRDRC.get key = some ())

variable {rdrcTimeout} {key} {t} {since : Nat} {s s' : Threads τ (Shared κ) (Place κ)}

theorem InFile.step {a : τ × Action κ} (h : InFile rdrcTimeout key since s.shared)
    (undisturbed : Undisturbed key t s a)
    (taken : step (act rdrcTimeout) s a = some s') : InFile rdrcTimeout key since s'.shared := by
  obtain ⟨later, expiresAt, there, enough⟩ := h
  have does := does_of_act key (step_cases taken).1
  refine ⟨Nat.le_trans later does.now, ?_⟩
  rcases does.db with same | new | ⟨place, go⟩
  · exact ⟨expiresAt, same.trans there, enough⟩
  · exact ⟨_, new, Nat.div_le_div_right (Nat.add_le_add_right later _)⟩
  · exact absurd place (undisturbed go).1

theorem Recorded.step {a : τ × Action κ} (h : Recorded rdrcTimeout key t since s)
    (undisturbed : Undisturbed key t s a)
    (taken : step (act rdrcTimeout) s a = some s') : Recorded rdrcTimeout key t since s' := by
  rcases h with h | ⟨later, saving, flagged⟩
  · exact .inl (h.step undisturbed taken)
  · obtain ⟨u, action⟩ := a
    obtain ⟨acted, others⟩ := step_cases taken
    have does := does_of_act key acted
    have later' := Nat.le_trans later does.now
    by_cases mine : u = t
    · subst mine
      rw [saving] at acted
      cases action with
      | wait time =>
        obtain ⟨shared, place⟩ := Prod.mk.inj (Option.some.inj acted)
        exact .inr ⟨later', place.symm, by rw [← shared]; exact flagged⟩
      | go =>
        obtain ⟨shared, _⟩ := Prod.mk.inj (Option.some.inj acted)
        refine .inl ⟨later', _, by rw [← shared]; exact if_pos rfl, ?_⟩
        exact Nat.div_le_div_right (Nat.add_le_add_right later _)
      | loadRDRC | saveRDRC | saveRDRCAsync => cases acted
    · refine .inr ⟨later', (others t (Ne.symm mine)).trans saving, ?_⟩
      rcases does.saveRDRC with same | new | ⟨place, go⟩
      · exact same.trans flagged
      · exact new
      · exact absurd place ((undisturbed go).2 mine)

/-- **Rejections are kept.** After a save, a load that begins later and looks into the file before
the timeout is over, less a second, finds the rejection, as long as no step deletes the entry of the
key and no other asynchronous save of it ends. -/
theorem rejection_kept {s₀ s₁ s₂ : Threads τ (Shared κ) (Place κ)} {v : τ}
    (saved : step (act rdrcTimeout) s₀ (t, .saveRDRC key) = some s ∨
      step (act rdrcTimeout) s₀ (t, .saveRDRCAsync key) = some s)
    (run : Run (step (act rdrcTimeout)) (Undisturbed key t) s s₁)
    (begins : step (act rdrcTimeout) s₁ (v, .loadRDRC key) = some s₂) :
    s₂.pc v = .loaded true ∨
      (s₂.pc v = .view key ∧ ∀ s₃, Run (step (act rdrcTimeout)) (Undisturbed key t) s₂ s₃ →
        s₃.pc v = .view key →
        s₃.shared.now + second ≤ s₀.shared.now + rdrcTimeout →
        ∃ s₄, step (act rdrcTimeout) s₃ (v, .go) = some s₄ ∧ s₄.pc v = .loaded true) := by
  have recorded : Recorded rdrcTimeout key t s₀.shared.now s := by
    rcases saved with taken | taken
    · have acted := (step_cases taken).1
      have later := (does_of_act key acted).now
      rw [idle_of_call acted nofun nofun] at acted
      obtain ⟨shared, _⟩ := Prod.mk.inj (Option.some.inj acted)
      exact .inl ⟨later, _, by rw [← shared]; exact if_pos rfl, .refl⟩
    · have acted := (step_cases taken).1
      have later := (does_of_act key acted).now
      rw [idle_of_call acted nofun nofun] at acted
      obtain ⟨shared, place⟩ := Prod.mk.inj (Option.some.inj acted)
      exact .inr ⟨later, place.symm, by rw [← shared]; exact if_pos rfl⟩
  have recorded := run.invariant recorded fun _ _ _ => Recorded.step
  have called := (step_cases begins).1
  rw [idle_of_call called nofun nofun, act] at called
  split at called
  · exact .inl (Prod.mk.inj (Option.some.inj called)).2.symm
  · rename_i unflagged
    obtain ⟨shared, place⟩ := Prod.mk.inj (Option.some.inj called)
    refine .inr ⟨place.symm, fun s₃ run viewing early => ?_⟩
    have inFile : InFile rdrcTimeout key s₀.shared.now s₂.shared := by
      rcases recorded with inFile | ⟨_, _, flagged⟩
      · rw [← shared]
        exact inFile
      · rw [unflagged] at flagged
        cases flagged
    obtain ⟨_, expiresAt, there, enough⟩ := run.invariant inFile fun _ _ _ => InFile.step
    have fresh : ¬ expiresAt * second < s₃.shared.now := by
      unfold second at *
      omega
    have acted : act rdrcTimeout v s₃.shared (s₃.pc v) .go = some (s₃.shared, .loaded true) := by
      rw [viewing, act, there]
      dsimp only
      rw [if_neg fresh]
    exact ⟨_, by rw [step, acted]; rfl, if_pos rfl⟩

end

def threads (expiresAt : Option Nat) : Threads (Fin 3) (Shared Unit) (Place Unit) where
  shared := { now := 5 * second, db := ⟨fun _ => expiresAt⟩ }
  pc _ := .idle

/-- An asynchronous save ends a second before the load begins; a second load and a second go by
before it looks into the file. -/
theorem saved_loaded : ∃ s s₁ s₂ s₃ s₄,
    step (act (10 * second)) (threads none) (1, .saveRDRCAsync ()) = some s ∧
    exec (step (act (10 * second))) s [(1, .go), (1, .go), (0, .wait second)] = some s₁ ∧
    step (act (10 * second)) s₁ (2, .loadRDRC ()) = some s₂ ∧
    exec (step (act (10 * second))) s₂ [(0, .loadRDRC ()), (1, .wait second)] = some s₃ ∧
    step (act (10 * second)) s₃ (2, .go) = some s₄ ∧ s₄.pc 2 = .loaded true := by
  have saved : step (act (10 * second)) (threads none) (1, .saveRDRCAsync ()) = some _ := rfl
  have begins := @rejection_kept _ _ _ _ _ _ _ _ _ _ _ 2 (.inr saved)
    (((Run.start.next (a := (1, .go)) (fun _ => ⟨by decide, absurd rfl⟩) rfl).next
      (a := (1, .go)) (fun _ => ⟨by decide, absurd rfl⟩) rfl).next
      (a := (0, .wait second)) (fun go => by cases go) rfl) rfl
  rcases begins with other | ⟨place, loads⟩
  · cases other
  · obtain ⟨s₄, taken, loaded⟩ := loads _
      ((Run.start.next (a := (0, .loadRDRC ())) (fun go => by cases go) rfl).next
        (a := (1, .wait second)) (fun go => by cases go) rfl) place (by decide)
    exact ⟨_, _, _, _, s₄, saved, rfl, rfl, rfl, taken, loaded⟩

/-- The first thread sees an entry that has expired, and deletes the one the second thread saves
meanwhile. -/
theorem rejection_lost :
    (exec (step (act (10 * second))) (threads (some 1))
      [(0, .loadRDRC ()), (0, .go), (1, .saveRDRC ()), (0, .go), (2, .loadRDRC ()), (2, .go)]).map
        (·.pc 2) =
    some (.loaded false) := by
  decide

end AiboosterEngine.Rdrc
