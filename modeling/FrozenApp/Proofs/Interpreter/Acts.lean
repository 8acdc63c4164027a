import FrozenApp.Interpreter.Library
import FrozenApp.Interpreter.Terminated
/-!
# What a program adds to the trace

`Leaves m P`: whatever was done before, the program `m` only adds to the trace,
and `P` holds of its result and of what it adds. Most programs add nothing but
lines of the log and calls: `Acts` says this, and what the calls are, `Goes` says
the same of a program that may fail, `Over` of one over a state, and `Stage` of one
that may fail besides. All of them follow the program: there is a rule for each way
to put programs together, and one for each thing that they do.
-/

namespace FrozenApp.Interpreter

/-- A call with its reply. -/
abbrev Exchange := (c : Call) × c.Reply

/-- The calls, in order. -/
def Trace.calls (t : Trace) : List Exchange :=
  t.filterMap fun
    | .called _ call reply => some ⟨call, reply⟩
    | _ => none

/-- Lines of the log and calls, nothing that is done to a library. -/
def Event.IsInner : Event → Prop
  | .log .. | .called .. => True
  | .tried .. | .closed _ => False

variable {α β : Type}

theorem filterMap_cons_toList (f : α → Option β) (x : α) (l : List α) :
    (x :: l).filterMap f = (f x).toList ++ l.filterMap f := by
  cases h : f x <;> simp [h]

theorem calls_append (s t : Trace) : Trace.calls (s ++ t) = s.calls ++ t.calls :=
  List.filterMap_append

def Leaves (m : StateM Trace α) (P : α → Trace → Prop) : Prop :=
  ∀ t, ∃ new : Trace, (m.run t).2 = t ++ new ∧ P (m.run t).1 new

namespace Leaves

variable {m : StateM Trace α} {f : α → StateM Trace β} {P Q : α → Trace → Prop} {R : β → Trace → Prop}

theorem mono (h : Leaves m Q) (hPQ : ∀ a new, Q a new → P a new) : Leaves m P := by
  intro t
  obtain ⟨new, ht, hQ⟩ := h t
  exact ⟨new, ht, hPQ _ _ hQ⟩

theorem pure {a : α} (h : P a []) : Leaves (pure a) P :=
  fun t => ⟨[], (List.append_nil t).symm, h⟩

theorem bind (h : Leaves m Q) (hf : ∀ a new, Q a new → Leaves (f a) fun b new' => R b (new ++ new')) :
    Leaves (m >>= f) R := by
  intro t
  obtain ⟨new, ht, hQ⟩ := h t
  obtain ⟨new', ht', hR⟩ := hf _ _ hQ (m.run t).2
  refine ⟨new ++ new', ?_, hR⟩
  rw [← List.append_assoc, ← ht]
  exact ht'

theorem emit {e : Event} {P : Unit → Trace → Prop} (h : P () [e]) : Leaves (emit e) P :=
  fun _ => ⟨[e], rfl, h⟩

end Leaves

/-- The program adds lines of the log and calls, and nothing else. -/
def Acts (m : StateM Trace α) (P : α → List Exchange → Prop) : Prop :=
  Leaves m fun a new => (∀ e ∈ new, e.IsInner) ∧ P a new.calls

namespace Acts

variable {m : StateM Trace α} {f : α → StateM Trace β} {P Q : α → List Exchange → Prop}
  {R : β → List Exchange → Prop} {lib : Library} {c : Call}

theorem mono (h : Acts m Q) (hPQ : ∀ a l, Q a l → P a l) : Acts m P :=
  Leaves.mono h fun _ _ ⟨hinner, hQ⟩ => ⟨hinner, hPQ _ _ hQ⟩

theorem pure {a : α} (h : P a []) : Acts (pure a) P :=
  Leaves.pure ⟨nofun, h⟩

theorem bind (h : Acts m Q) (hf : ∀ a l, Q a l → Acts (f a) fun b l' => R b (l ++ l')) : Acts (m >>= f) R := by
  refine Leaves.bind h fun a new ⟨hinner, hQ⟩ => ?_
  refine Leaves.mono (hf a _ hQ) fun b new' ⟨hinner', hR⟩ => ⟨fun e he => ?_, ?_⟩
  · rcases List.mem_append.1 he with he | he
    · exact hinner e he
    · exact hinner' e he
  · rw [calls_append]; exact hR

theorem map {g : α → β} (h : Acts m fun a l => R (g a) l) : Acts (g <$> m) R :=
  bind h fun _ _ ha => pure (by rw [List.append_nil]; exact ha)

theorem debug {message : String} {P : Unit → List Exchange → Prop} (h : P () []) : Acts (debug message) P :=
  fun _ => ⟨[.log .debug message], rfl, fun e he => by rw [List.mem_singleton.1 he]; trivial, h⟩

theorem logError {message : String} {P : Unit → List Exchange → Prop} (h : P () []) : Acts (logError message) P :=
  fun _ => ⟨[.log .error message], rfl, fun e he => by rw [List.mem_singleton.1 he]; trivial, h⟩

theorem ask {P : c.Reply → List Exchange → Prop} (h : ∀ r, P r [⟨c, r⟩]) : Acts (lib.ask c) P :=
  fun t => ⟨[.called (lib.address c.symbol) c (lib.run t (lib.address c.symbol) c)], rfl,
    fun e he => by rw [List.mem_singleton.1 he]; trivial, h _⟩

theorem ask_bind {f : c.Reply → StateM Trace β} (h : ∀ r, Acts (f r) fun b l => R b (⟨c, r⟩ :: l)) :
    Acts (lib.ask c >>= f) R :=
  bind (ask (P := fun r l => l = [⟨c, r⟩]) fun _ => rfl) fun r l hl => by rw [hl]; exact h r

theorem debug_bind {message : String} {f : Unit → StateM Trace β} (h : Acts (f ()) R) :
    Acts (Interpreter.debug message >>= f) R :=
  bind (debug (P := fun _ l => l = []) rfl) fun _ l hl => by rw [hl]; exact h

theorem logError_bind {message : String} {f : Unit → StateM Trace β} (h : Acts (f ()) R) :
    Acts (Interpreter.logError message >>= f) R :=
  bind (logError (P := fun _ l => l = []) rfl) fun _ l hl => by rw [hl]; exact h

end Acts

variable {σ ε : Type}

/-! ## Programs that may fail -/

/-- `Acts`, for a program that may fail. -/
def Goes (m : Act ε α) (P : Except ε α → List Exchange → Prop) : Prop :=
  Acts m.run P

namespace Goes

variable {m : Act ε α} {f : α → Act ε β} {P Q : Except ε α → List Exchange → Prop}
  {R : Except ε β → List Exchange → Prop} {lib : Library}

theorem mono (h : Goes m Q) (hPQ : ∀ r l, Q r l → P r l) : Goes m P :=
  Acts.mono h hPQ

theorem pure {a : α} (h : P (.ok a) []) : Goes (pure a) P :=
  Acts.pure h

theorem throw {e : ε} (h : P (.error e) []) : Goes (throw e) P :=
  Acts.pure h

theorem bind (h : Goes m Q) (hok : ∀ a l, Q (.ok a) l → Goes (f a) fun r l' => R r (l ++ l'))
    (herror : ∀ e l, Q (.error e) l → R (.error e) l) : Goes (m >>= f) R := by
  rw [Goes, ExceptT.run_bind]
  refine Acts.bind h fun r l hQ => ?_
  cases r with
  | ok a => exact hok a l hQ
  | error e => exact Acts.pure (by rw [List.append_nil]; exact herror e l hQ)

theorem lift {x : StateM Trace α} (h : Acts x fun a l => P (.ok a) l) : Goes (liftM x) P := by
  have hrun : (liftM x : Act ε α).run = x >>= fun a => Pure.pure (.ok a) := rfl
  rw [Goes, hrun]
  exact Acts.bind h fun _ _ ha => Acts.pure (by rw [List.append_nil]; exact ha)

theorem lift_bind {x : StateM Trace α} {T : α → List Exchange → Prop} (h : Acts x T)
    (hf : ∀ a l, T a l → Goes (f a) fun r l' => R r (l ++ l')) : Goes (liftM x >>= f) R :=
  bind (lift (P := fun r l => ∃ a, r = .ok a ∧ T a l) (h.mono fun a _ ha => ⟨a, rfl, ha⟩))
    (fun _ _ ⟨_, ha, hT⟩ => by cases ha; exact hf _ _ hT) fun _ _ ⟨_, ha, _⟩ => nomatch ha

theorem ask_bind {c : Call} {f : c.Reply → Act ε β} (h : ∀ r, Goes (f r) fun r' l => R r' (⟨c, r⟩ :: l)) :
    Goes (liftM (lib.ask c) >>= f) R :=
  lift_bind (Acts.ask (P := fun r l => l = [⟨c, r⟩]) fun _ => rfl) fun r l hl => by rw [hl]; exact h r

theorem debug_bind {message : String} {f : Unit → Act ε β} (h : Goes (f ()) R) :
    Goes (liftM (debug message) >>= f) R :=
  lift_bind (Acts.debug (P := fun _ l => l = []) rfl) fun _ l hl => by rw [hl]; exact h

theorem logError_bind {message : String} {f : Unit → Act ε β} (h : Goes (f ()) R) :
    Goes (liftM (logError message) >>= f) R :=
  lift_bind (Acts.logError (P := fun _ l => l = []) rfl) fun _ l hl => by rw [hl]; exact h

theorem lift_throw {x : StateM Trace α} {e : ε} {T : α → List Exchange → Prop} (h : Acts x T)
    (hT : ∀ a l, T a l → R (.error e) l) : Goes (liftM x >>= fun _ => MonadExcept.throw e) R :=
  lift_bind h fun a l ha => throw (by rw [List.append_nil]; exact hT a l ha)

end Goes

/-! ## Programs over a state -/

/-- `Acts`, for a program over a state, with the state behind it. -/
def Over (m : StateT σ (StateM Trace) α) (s : σ) (P : α → σ → List Exchange → Prop) : Prop :=
  Acts (m.run s) fun p l => P p.1 p.2 l

namespace Over

variable {m : StateT σ (StateM Trace) α} {f : α → StateT σ (StateM Trace) β} {s : σ}
  {P Q : α → σ → List Exchange → Prop} {R : β → σ → List Exchange → Prop}

theorem mono (h : Over m s Q) (hPQ : ∀ a s' l, Q a s' l → P a s' l) : Over m s P :=
  Acts.mono h fun p l => hPQ p.1 p.2 l

theorem bind (h : Over m s Q) (hf : ∀ a s' l, Q a s' l → Over (f a) s' fun b s'' l' => R b s'' (l ++ l')) :
    Over (m >>= f) s R := by
  rw [Over, StateT.run_bind]
  exact Acts.bind h fun p l hQ => hf p.1 p.2 l hQ

theorem get_bind {f : σ → StateT σ (StateM Trace) β} (h : Over (f s) s R) : Over (get >>= f) s R :=
  h

theorem set {s' : σ} {P : Unit → σ → List Exchange → Prop} (h : P () s' []) : Over (set s') s P :=
  Acts.pure h

theorem modify {g : σ → σ} {P : Unit → σ → List Exchange → Prop} (h : P () (g s) []) : Over (modify g) s P :=
  Acts.pure h

theorem pure {a : α} (h : P a s []) : Over (pure a) s P :=
  Acts.pure h

theorem map {g : α → β} (h : Over m s fun a s' l => R (g a) s' l) : Over (g <$> m) s R :=
  bind h fun _ _ _ ha => pure (by rw [List.append_nil]; exact ha)

theorem lift {x : StateM Trace α} (h : Acts x fun a l => P a s l) : Over (liftM x) s P := by
  have hrun : (liftM x : StateT σ (StateM Trace) α).run s = x >>= fun a => Pure.pure (a, s) := rfl
  rw [Over, hrun]
  exact Acts.bind h fun _ _ ha => Acts.pure (by rw [List.append_nil]; exact ha)

theorem lift_bind {x : StateM Trace α} {T : α → List Exchange → Prop} (h : Acts x T)
    (hf : ∀ a l, T a l → Over (f a) s fun b s' l' => R b s' (l ++ l')) : Over (liftM x >>= f) s R :=
  bind (lift (P := fun a s' l => s' = s ∧ T a l) (h.mono fun _ _ ha => ⟨rfl, ha⟩))
    fun _ _ l ⟨hs, hT⟩ => by rw [hs]; exact hf _ l hT

theorem ask_bind {lib : Library} {c : Call} {f : c.Reply → StateT σ (StateM Trace) β}
    (h : ∀ r, Over (f r) s fun b s' l => R b s' (⟨c, r⟩ :: l)) : Over (liftM (lib.ask c) >>= f) s R :=
  lift_bind (Acts.ask (P := fun r l => l = [⟨c, r⟩]) fun _ => rfl) fun r l hl => by rw [hl]; exact h r

theorem debug_bind {message : String} {f : Unit → StateT σ (StateM Trace) β} (h : Over (f ()) s R) :
    Over (liftM (debug message) >>= f) s R :=
  lift_bind (Acts.debug (P := fun _ l => l = []) rfl) fun _ l hl => by rw [hl]; exact h

theorem debug {message : String} {P : Unit → σ → List Exchange → Prop} (h : P () s []) :
    Over (liftM (debug message)) s P :=
  lift (Acts.debug h)

end Over

/-! ## Programs over a state that may fail -/

/-- `Over`, for a program that may fail. -/
def Stage (m : ExceptT ε (StateT σ (StateM Trace)) α) (s : σ) (P : Except ε α → σ → List Exchange → Prop) : Prop :=
  Over m.run s P

namespace Stage

variable {m : ExceptT ε (StateT σ (StateM Trace)) α} {f : α → ExceptT ε (StateT σ (StateM Trace)) β} {s : σ}
  {P Q : Except ε α → σ → List Exchange → Prop} {R : Except ε β → σ → List Exchange → Prop}

theorem mono (h : Stage m s Q) (hPQ : ∀ r s' l, Q r s' l → P r s' l) : Stage m s P :=
  Over.mono h hPQ

theorem get_bind {f : σ → ExceptT ε (StateT σ (StateM Trace)) β} (h : Stage (f s) s R) : Stage (get >>= f) s R :=
  h

theorem set_bind {s' : σ} {f : Unit → ExceptT ε (StateT σ (StateM Trace)) β} (h : Stage (f ()) s' R) :
    Stage (set s' >>= f) s R :=
  h

theorem modify_bind {g : σ → σ} {f : Unit → ExceptT ε (StateT σ (StateM Trace)) β} (h : Stage (f ()) (g s) R) :
    Stage (modify g >>= f) s R :=
  h

theorem modify {g : σ → σ} {P : Except ε Unit → σ → List Exchange → Prop} (h : P (.ok ()) (g s) []) :
    Stage (modify g) s P :=
  Acts.pure h

theorem throw_bind {e : ε} {f : α → ExceptT ε (StateT σ (StateM Trace)) β} (h : R (.error e) s []) :
    Stage (throw e >>= f) s R :=
  Acts.pure h

theorem pure {a : α} (h : P (.ok a) s []) : Stage (pure a) s P :=
  Acts.pure h

theorem throw {e : ε} (h : P (.error e) s []) : Stage (throw e) s P :=
  Acts.pure h

theorem bind (h : Stage m s Q) (hok : ∀ a s' l, Q (.ok a) s' l → Stage (f a) s' fun r s'' l' => R r s'' (l ++ l'))
    (herror : ∀ e s' l, Q (.error e) s' l → R (.error e) s' l) : Stage (m >>= f) s R := by
  rw [Stage, ExceptT.run_bind]
  refine Over.bind h fun r s' l hQ => ?_
  cases r with
  | ok a => exact hok a s' l hQ
  | error e => exact Over.pure (by rw [List.append_nil]; exact herror e s' l hQ)

theorem lift {x : StateM Trace α} (h : Acts x fun a l => P (.ok a) s l) :
    Stage (liftM x : ExceptT ε (StateT σ (StateM Trace)) α) s P := by
  have hrun : (liftM x : ExceptT ε (StateT σ (StateM Trace)) α).run =
      (liftM x : StateT σ (StateM Trace) α) >>= fun a => Pure.pure (.ok a) := rfl
  rw [Stage, hrun]
  exact Over.lift_bind h fun _ _ ha => Over.pure (by rw [List.append_nil]; exact ha)

theorem lift_bind {x : StateM Trace α} {T : α → List Exchange → Prop} (h : Acts x T)
    (hf : ∀ a l, T a l → Stage (f a) s fun r s' l' => R r s' (l ++ l')) : Stage (liftM x >>= f) s R :=
  bind (lift (P := fun r s' l => ∃ a, r = .ok a ∧ s' = s ∧ T a l) (h.mono fun a _ ha => ⟨a, rfl, rfl, ha⟩))
    (fun _ _ l ⟨_, ha, hs, hT⟩ => by cases ha; cases hs; exact hf _ l hT) fun _ _ _ ⟨_, ha, _⟩ => nomatch ha

theorem ask_bind {lib : Library} {c : Call} {f : c.Reply → ExceptT ε (StateT σ (StateM Trace)) β}
    (h : ∀ r, Stage (f r) s fun r' s' l => R r' s' (⟨c, r⟩ :: l)) : Stage (liftM (lib.ask c) >>= f) s R :=
  lift_bind (Acts.ask (P := fun r l => l = [⟨c, r⟩]) fun _ => rfl) fun r l hl => by rw [hl]; exact h r

theorem debug_bind {message : String} {f : Unit → ExceptT ε (StateT σ (StateM Trace)) β} (h : Stage (f ()) s R) :
    Stage (liftM (debug message) >>= f) s R :=
  lift_bind (Acts.debug (P := fun _ l => l = []) rfl) fun _ l hl => by rw [hl]; exact h

end Stage

/-! ## Values that are handed over -/

theorem terminated_of_mem {value : Bytes} (h : 0 ∈ value) : terminated value = .error ⟨value⟩ :=
  if_pos (by simpa using h)

theorem terminated_of_not_mem {value : Bytes} (h : 0 ∉ value) : terminated value = .ok value :=
  if_neg (by simpa using h)

theorem terminated_eq_ok {value raw : Bytes} (h : terminated value = .ok raw) : 0 ∉ value ∧ raw = value := by
  rw [terminated] at h
  split at h
  · cases h
  · next hnul => cases h; exact ⟨by simpa using hnul, rfl⟩

theorem terminated_eq_error {value : Bytes} {e : InteriorNul} (h : terminated value = .error e) :
    0 ∈ value ∧ e = ⟨value⟩ := by
  rw [terminated] at h
  split at h
  · next hnul => cases h; exact ⟨by simpa using hnul, rfl⟩
  · cases h

theorem signedLength?_of_lt {data : Bytes} (h : data.length < 0x8000000000000000) :
    signedLength? data = some (Int64.ofNat data.length) :=
  if_pos h

end FrozenApp.Interpreter
