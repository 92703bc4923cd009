import Storehouse.Exchange.Keyed

namespace Storehouse

variable {α β σ : Type}

namespace Keyed

variable {k : Keyed α} {space : Keyspace} {key : String} {execute : Executor σ} {x : Exchange σ}

theorem run_on_of_ok {reply : Reply} {t : σ}
    (h : execute (k.command space key) x.server = (.ok reply, t)) :
    (k.on space key).run execute x =
      ((k.read reply).mapError .unexpected, ⟨t, x.events⟩) := by
  rw [on, Dialogue.run_bind, Dialogue.ask, Dialogue.run, h]
  rfl

theorem run_on (k : Keyed α) {reply : Reply} {t : σ} {a : α}
    (h : execute (k.command space key) x.server = (.ok reply, t)) (hread : k.read reply = .ok a) :
    (k.on space key).run execute x = (.ok a, ⟨t, x.events⟩) := by
  rw [run_on_of_ok h, hread]
  rfl

theorem run_on_of_error {e : Fault} {t : σ}
    (h : execute (k.command space key) x.server = (.error e, t)) :
    (k.on space key).run execute x = (.error e, ⟨t, x.events⟩) := by
  rw [on, Dialogue.run_bind, Dialogue.ask, Dialogue.run, h]

theorem exists_read_of_run_on {a : α} {y : Exchange σ}
    (h : (k.on space key).run execute x = (.ok a, y)) :
    ∃ reply, (execute (k.command space key) x.server).1 = .ok reply ∧ k.read reply = .ok a := by
  rcases hexecute : execute (k.command space key) x.server with ⟨answer, t⟩
  cases answer with
  | error e =>
    rw [run_on_of_error hexecute] at h
    cases h
  | ok reply =>
    rw [run_on_of_ok hexecute] at h
    cases hread : k.read reply with
    | error u =>
      rw [hread] at h
      cases h
    | ok b =>
      rw [hread] at h
      cases h
      exact ⟨reply, rfl, hread⟩

end Keyed
end Storehouse
