import Mathlib.Data.List.Forall2
import SpectrumPacking.Proofs.Files.Stores

/-!
# Tasks Side by Side

A task works on files call by call.  Tasks that run side by side take turns in any order: one of
them makes its next call, and then one of them again (`FileTask.Step`).  Every call of every task
stays within a preorder on stores, and that is all that a task may rely on between its own calls;
what it brings about on these terms, it brings about in every interleaving
(`FileTask.Runs.meets`).  Running the tasks one after another is one of the interleavings
(`FileTask.runs_mapM`).  Running a task is one of the ways to carry programs from one monad to
another that leave their calls for files what they are (`FileTranslation`).
-/

namespace SpectrumPacking

/-! ## §1 Calls and Tasks -/

/-- Something to ask of a file store. -/
inductive FileCall where
  | kind? (p : Path)
  | read (p : Path)
  | write (p : Path) (text : String)
  | makeDirectories (p : Path)
  | names (p : Path)

namespace FileCall

/-- What a call is answered with. -/
def Answer : FileCall → Type
  | kind? _ => Option FileKind
  | read _ => Except FileFault String
  | write _ _ => Except FileFault Unit
  | makeDirectories _ => Except FileFault Unit
  | names _ => Except FileFault (List String)

/-- What a call does to a file store. -/
def perform : (c : FileCall) → StateM FileStore c.Answer
  | kind? p => FileAccess.kind? p
  | read p => FileAccess.read p
  | write p text => FileAccess.write p text
  | makeDirectories p => FileAccess.makeDirectories p
  | names p => FileAccess.names p

end FileCall

/-- A program that waits for the answer to each of its calls. -/
inductive FileTask (α : Type) : Type where
  | done (a : α)
  | call (c : FileCall) (next : c.Answer → FileTask α)

namespace FileTask

variable {α β : Type}

/-- Goes on with the result of a task. -/
def bind : FileTask α → (α → FileTask β) → FileTask β
  | done a, f => f a
  | call c next, f => call c fun r => (next r).bind f

instance : Monad FileTask where
  pure := done
  bind := bind

instance : FileAccess FileTask where
  kind? p := call (.kind? p) done
  read p := call (.read p) done
  write p text := call (.write p text) done
  makeDirectories p := call (.makeDirectories p) done
  names p := call (.names p) done

/-! ## §2 Interleavings -/

/-- One of some tasks makes its next call. -/
inductive Step : List (FileTask α) → FileStore → List (FileTask α) → FileStore → Prop
  | here (c : FileCall) (next : c.Answer → FileTask α) (rest : List (FileTask α)) (s : FileStore) :
    Step (call c next :: rest) s (next (c.perform s).1 :: rest) (c.perform s).2
  | there {rest rest' : List (FileTask α)} {s s' : FileStore} (task : FileTask α)
    (h : Step rest s rest' s') : Step (task :: rest) s (task :: rest') s'

/-- Some tasks come to their results by taking turns. -/
inductive Runs : List (FileTask α) → FileStore → List α → FileStore → Prop
  | done (results : List α) (s : FileStore) : Runs (results.map done) s results s
  | step {tasks tasks' : List (FileTask α)} {s s' t : FileStore} {results : List α}
    (h : Step tasks s tasks' s') (rest : Runs tasks' s' results t) : Runs tasks s results t

/-! ## §3 Relying on One Another -/

variable {R : FileStore → FileStore → Prop} {Q : α → FileStore → Prop} {s t : FileStore}

/-- What tasks may do to a store while others are at work: doing nothing is allowed, and so is one
thing after another. -/
structure IsPreorder (R : FileStore → FileStore → Prop) : Prop where
  refl : ∀ s, R s s
  trans : ∀ s t u, R s t → R t u → R s u

/-- A result that stays right whatever others do. -/
def IsStable (R : FileStore → FileStore → Prop) (Q : α → FileStore → Prop) : Prop :=
  ∀ a s t, R s t → Q a s → Q a t

/-- A task keeps to the bounds and comes to a right result, if others keep to them, too. -/
def Meets (R : FileStore → FileStore → Prop) (Q : α → FileStore → Prop) :
    FileTask α → FileStore → Prop
  | done a, s => Q a s
  | call c next, s => ∀ t, R s t → R t (c.perform t).2 ∧
      (next (c.perform t).1).Meets R Q (c.perform t).2

/-- A task does not mind what others do before its next call. -/
theorem Meets.later (hR : IsPreorder R) (hQ : IsStable R Q) {task : FileTask α}
    (h : task.Meets R Q s) (hst : R s t) : task.Meets R Q t := by
  cases task with
  | done a => exact hQ a s t hst h
  | call c next => exact fun u htu => h u (hR.trans s t u hst htu)

theorem Meets.bind {P : β → FileStore → Prop} {task : FileTask α} {f : α → FileTask β}
    (h : task.Meets R Q s) (hf : ∀ a t, Q a t → (f a).Meets R P t) :
    (task >>= f).Meets R P s := by
  induction task generalizing s with
  | done a => exact hf a s h
  | call c next ih => exact fun t hst => ⟨(h t hst).1, ih _ (h t hst).2⟩

theorem Meets.read {p : Path} {next : Except FileFault String → FileTask α} (hR : IsPreorder R)
    (h : ∀ t, (next (t.read p)).Meets R Q t) : (FileAccess.read p >>= next).Meets R Q s :=
  fun t _ => ⟨hR.refl t, h t⟩

theorem Meets.makeDirectories {p : Path} {next : Except FileFault Unit → FileTask α}
    (h : ∀ t r u, R s t → t.provideAll p = (r, u) → R t u ∧ (next r).Meets R Q u) :
    (FileAccess.makeDirectories p >>= next).Meets R Q s :=
  fun t hst => h t _ _ hst rfl

/-- The rule for a call that either changes the store or is refused. -/
theorem Meets.write {p : Path} {text : String} {next : Except FileFault Unit → FileTask α}
    (hR : IsPreorder R)
    (hok : ∀ t u, R s t → t.write p (.text text) = .ok u → R t u ∧ (next (.ok ())).Meets R Q u)
    (herror : ∀ t cause, R s t → t.write p (.text text) = .error cause →
      (next (.error cause)).Meets R Q t) :
    (FileAccess.write p text >>= next).Meets R Q s := by
  intro t hst
  cases hwrite : t.write p (.text text) with
  | error cause =>
    have hcall : (FileCall.write p text).perform t = (.error cause, t) :=
      FileStore.write_access_error hwrite
    show R t _ ∧ (next _).Meets R Q _
    rw [hcall]
    exact ⟨hR.refl t, herror t cause hst hwrite⟩
  | ok u =>
    have hcall : (FileCall.write p text).perform t = (.ok (), u) := FileStore.write_access hwrite
    show R t _ ∧ (next _).Meets R Q _
    rw [hcall]
    exact hok t u hst hwrite

variable {Q : β → α → FileStore → Prop} {l : List β} {tasks tasks' : List (FileTask α)}
  {results : List α}

/-- A call of one task keeps to the bounds, and the others do not mind. -/
theorem Step.meets (hR : IsPreorder R) (hQ : ∀ b, IsStable R (Q b)) (h : Step tasks s tasks' t)
    (hmeets : List.Forall₂ (fun b task => Meets R (Q b) task s) l tasks) :
    R s t ∧ List.Forall₂ (fun b task => Meets R (Q b) task t) l tasks' := by
  induction h generalizing l with
  | here c next rest s =>
    cases hmeets with
    | cons hcall hrest =>
      obtain ⟨hbounds, hnext⟩ := hcall s (hR.refl s)
      exact ⟨hbounds, .cons hnext (hrest.imp fun b task h => h.later hR (hQ b) hbounds)⟩
  | there task _ ih =>
    cases hmeets with
    | cons htask hrest =>
      obtain ⟨hbounds, hrest'⟩ := ih hrest
      exact ⟨hbounds, .cons (htask.later hR (hQ _) hbounds) hrest'⟩

/-- In every interleaving, tasks come to right results. -/
theorem Runs.meets (hR : IsPreorder R) (hQ : ∀ b, IsStable R (Q b)) (h : Runs tasks s results t)
    (hmeets : List.Forall₂ (fun b task => Meets R (Q b) task s) l tasks) :
    R s t ∧ List.Forall₂ (fun b a => Q b a t) l results := by
  induction h with
  | done results s => exact ⟨hR.refl s, List.forall₂_map_right_iff.1 hmeets⟩
  | step hstep _ ih =>
    obtain ⟨hfirst, hmeets'⟩ := hstep.meets hR hQ hmeets
    obtain ⟨hlater, hresults⟩ := ih hmeets'
    exact ⟨hR.trans _ _ _ hfirst hlater, hresults⟩

/-! ## §4 One after Another -/

/-- Makes the calls of a task without a pause. -/
def run : FileTask α → StateM FileStore α
  | done a => pure a
  | call c next => c.perform >>= fun r => (next r).run

theorem run_bind {task : FileTask α} {f : α → FileTask β} :
    (task >>= f).run = task.run >>= fun a => (f a).run := by
  induction task with
  | done a => rfl
  | call c next ih =>
    funext s
    exact congrFun (ih (c.perform s).1) (c.perform s).2

/-- A task that is done is not in the way of the others. -/
theorem Runs.done_cons (h : Runs tasks s results t) (a : α) :
    Runs (.done a :: tasks) s (a :: results) t := by
  induction h with
  | done results s => exact .done (a :: results) s
  | step hstep _ ih => exact .step (hstep.there _) ih

/-- The first of some tasks may run to its end before the others start. -/
theorem Runs.head {task : FileTask α} (h : Runs tasks (task.run s).2 results t) :
    Runs (task :: tasks) s ((task.run s).1 :: results) t := by
  induction task generalizing s with
  | done a => exact h.done_cons a
  | call c next ih => exact .step (.here c next tasks s) (ih _ h)

theorem runs_mapM {tasks : List (FileTask α)} :
    Runs tasks s (tasks.mapM run s).1 (tasks.mapM run s).2 := by
  induction tasks generalizing s with
  | nil => exact .done [] s
  | cons task rest ih =>
    rw [List.mapM_cons]
    exact Runs.head ih

end FileTask

/-! ## §5 Translations -/

/-- A way to carry programs from one monad to another in which their calls for files remain what
they are. -/
structure FileTranslation (m n : Type → Type) [Monad m] [Monad n] [FileAccess m]
    [FileAccess n] where
  carry : {α : Type} → m α → n α
  carry_pure : ∀ {α : Type} (a : α), carry (pure a) = pure a
  carry_bind : ∀ {α β : Type} (x : m α) (f : α → m β),
    carry (x >>= f) = carry x >>= fun a => carry (f a)
  carry_read : ∀ p, carry (FileAccess.read p) = FileAccess.read p
  carry_write : ∀ p text, carry (FileAccess.write p text) = FileAccess.write p text
  carry_makeDirectories : ∀ p,
    carry (FileAccess.makeDirectories p) = FileAccess.makeDirectories p

/-- Tasks run without a pause. -/
def FileTask.running : FileTranslation FileTask (StateM FileStore) where
  carry := run
  carry_pure _ := rfl
  carry_bind _ _ := run_bind
  carry_read _ := rfl
  carry_write _ _ := rfl
  carry_makeDirectories _ := rfl

end SpectrumPacking
