import SpectrumPacking.Proofs.Search.Delivery
import SpectrumPacking.Search.Session

/-!
# Sessions as Runs

A session takes the steps of its driver in one particular order, so what holds of all runs holds of
sessions.  In particular a session answers the job that it was asked to solve
(`Session.concludes_of_solve`).
-/

namespace SpectrumPacking

open Search

namespace Session

variable {ε : Type} [SearchEngine ε] {s s' : Session ε} {second second' : Option Request}

/-! ## §1 Steps of a Session -/

theorem step_timerMove {d : Driver ε} (h : s.timerMove? = some d) :
    ∃ l : Driver.Label, l.caller? = none ∧ s.driver.step l = some d := by
  unfold timerMove? at h
  split at h
  · cases h
  · rename_i t _
    split at h
    · rename_i d htimer
      cases h
      exact ⟨.timer t, rfl, htimer⟩
    · split at h
      · split at h
        · exact ⟨.cutoff t, rfl, h⟩
        · cases h
      · cases h

/-- In a session the callers, the timer and the worker take steps of the driver. -/
theorem step_advance (h : s.advance? = some s') :
    ∃ l : Driver.Label, l.caller? = none ∧ s.driver.step l = some s'.driver := by
  -- who moves is tried in this order
  unfold advance? at h
  split at h
  · rename_i d hcall
    cases h
    exact ⟨.call 1, rfl, hcall⟩
  · split at h
    · rename_i d hcall
      cases h
      exact ⟨.call 0, rfl, hcall⟩
    · split at h
      · rename_i d htimer
        cases h
        exact step_timerMove htimer
      · split at h
        · cases h
        · rename_i d hworker
          refine ⟨.worker, rfl, ?_⟩
          split at h <;> cases h <;> exact hworker

/-- The second call is the only one that starts while a session settles. -/
theorem step_next (h : s.next? second = some (second', s')) :
    ∃ l : Driver.Label, l.caller? ≠ some 0 ∧ s.driver.step l = some s'.driver := by
  unfold next? at h
  split at h
  · rename_i r _
    obtain ⟨d, hd, heq⟩ := Option.map_eq_some_iff.1 h
    cases heq
    exact ⟨.begin 1 r, nofun, hd⟩
  · obtain ⟨s'', hs, heq⟩ := Option.map_eq_some_iff.1 h
    cases heq
    obtain ⟨l, hl, hstep⟩ := step_advance hs
    exact ⟨l, by rw [hl]; nofun, hstep⟩

/-- What every step keeps holds when a session has settled. -/
theorem settle_induct {P : Session ε → Prop}
    (hP : ∀ {second second' s s'}, s.next? second = some (second', s') → P s → P s')
    (h : s.settle second = some s') (hs : P s) : P s' := by
  refine settle.partial_correctness (fun _ s s' => P s → P s') ?_ second s s' h hs
  intro settle ih second s s' h hs
  split at h
  · cases h
    exact hs
  · rename_i hnext
    exact ih _ _ _ h (hP hnext hs)

/-! ## §2 Runs of a Session -/

/-- A session is that of a driver whose engine began as `e₀`. -/
def IsRunOf (e₀ : ε) (s : Session ε) : Prop :=
  ∃ (seed : Nat) (grace : Duration), (Driver.spawn e₀ seed grace).Reaches s.driver

variable {e₀ : ε}

theorem IsRunOf.step (hs : s.IsRunOf e₀) {l : Driver.Label}
    (h : s.driver.step l = some s'.driver) : s'.IsRunOf e₀ := by
  obtain ⟨seed, grace, hreaches⟩ := hs
  exact ⟨seed, grace, hreaches.next l h⟩

theorem IsRunOf.sound (hs : s.IsRunOf e₀) : s.driver.exchange.Sound e₀ := by
  obtain ⟨seed, grace, hreaches⟩ := hs
  exact Driver.sound_of_reaches hreaches

theorem IsRunOf.settle (hs : s.IsRunOf e₀) (h : s.settle second = some s') : s'.IsRunOf e₀ := by
  refine settle_induct (P := IsRunOf e₀) ?_ h hs
  intro second second' s s' hnext hs
  obtain ⟨l, -, hstep⟩ := step_next hnext
  exact hs.step hstep

theorem IsRunOf.getD (hs : s.IsRunOf e₀) {o : Option (Session ε)}
    (ho : ∀ s', o = some s' → s'.IsRunOf e₀) : (o.getD s).IsRunOf e₀ := by
  cases o with
  | none => exact hs
  | some s' => exact ho s' rfl

theorem isRunOf_start {seed : Nat} {grace : Duration} {clock : Nat} :
    (start e₀ seed grace clock).IsRunOf e₀ := by
  have hspawn : IsRunOf e₀ { driver := Driver.spawn e₀ seed grace, clock := clock } :=
    ⟨seed, grace, .start⟩
  exact hspawn.getD fun _ h => hspawn.settle h

theorem IsRunOf.call (hs : s.IsRunOf e₀) {r : Request} (h : s.call? r second = some s') :
    s'.IsRunOf e₀ := by
  unfold call? at h
  split at h
  · rename_i d hbegin
    have hbegun : IsRunOf e₀ { s with driver := d } := hs.step (l := .begin 0 r) hbegin
    exact hbegun.settle h
  · cases h
    exact hs

theorem IsRunOf.interrupt (hs : s.IsRunOf e₀) : s.interrupt.IsRunOf e₀ :=
  hs.getD fun _ h => hs.call h

theorem IsRunOf.shutdown (hs : s.IsRunOf e₀) : s.shutdown.IsRunOf e₀ :=
  hs.getD fun _ h => hs.call h

theorem IsRunOf.solve (hs : s.IsRunOf e₀) {job : Job} : (s.solve job second).2.IsRunOf e₀ := by
  unfold Session.solve
  split
  · rename_i s' h
    exact hs.call h
  · exact hs

/-! ## §3 Answers of a Session -/

/-- A call for a job leaves its caller in this call, whatever happens until the session settles. -/
theorem inCall_of_call {job : Job} {d : Driver ε} (hbegin : s.driver.begin? 0 (.solve job) = some d)
    (h : Session.settle second { s with driver := d } = some s') :
    InCall s'.driver.history 0 job [] := by
  have hstart : InCall d.history 0 job [] := by
    unfold Driver.begin? at hbegin
    split at hbegin
    · cases hbegin
      exact inCall_start
    · cases hbegin
      exact inCall_start
    · cases hbegin
  refine settle_induct (P := fun s => InCall s.driver.history 0 job []) ?_ h hstart
  intro second second' s s' hnext hcall
  obtain ⟨l, hl, hstep⟩ := step_next hnext
  exact Exchange.inCall_step (Driver.exchange_step hstep) hl hcall

/-- An answer of a session is the status with which the engine ended its search for the formula of
the job, unless it is a timeout or a crash. -/
theorem concludes_of_solve (hs : s.IsRunOf e₀) {job : Job} {a : Answer}
    (h : (s.solve job second).1 = .ok a) :
    (a.verdict = .sat → Concludes e₀ job (.sat a.literals)) ∧
      (a.verdict = .unsat → Concludes e₀ job .unsat) := by
  unfold Session.solve at h
  split at h
  · rename_i s' hcall
    have hsound := (hs.call hcall).sound
    obtain ⟨r, hreturned⟩ : ∃ r, s'.driver.calls 0 = .returned (.answer r) ∧ r = .ok a := by
      unfold answer at h
      split at h
      · rename_i r hr
        exact ⟨r, hr, h⟩
      · cases h
    obtain ⟨hreturned, rfl⟩ := hreturned
    obtain ⟨t, job', hown⟩ := Driver.ownAnswer_of_returned hsound hreturned
    have hjob : job' = job := by
      unfold call? at hcall
      split at hcall
      · rename_i d hbegin
        exact hown.call.unique (inCall_of_call hbegin hcall)
      · rename_i hbegin
        cases hcall
        -- a caller that cannot start a call has not returned from one
        simp [Driver.begin?, hreturned] at hbegin
    subst hjob
    exact ⟨fun hv => (hown.sat hv).2, fun hv => (hown.unsat hv).2⟩
  · cases h

end Session

end SpectrumPacking
