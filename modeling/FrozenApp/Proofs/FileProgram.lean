import FrozenApp.Proofs.FileTree
/-!
# What file programs change

`Changes m t P`: started with the tree `t`, the program `m` ends, well or not, with a
result and a tree of which `P` holds. There is a rule for each way to put programs
together, and one lemma for each program that changes files.
-/

namespace FrozenApp

/-- The program, started with the tree `t`, ends with a result and a tree of which `P` holds. -/
def Changes {ε α : Type} (m : FileM ε α) (t : FileTree) (P : Except ε α → FileTree → Prop) : Prop :=
  P (m.run.run t).1 (m.run.run t).2

namespace Changes

variable {ε ε' α β : Type} {m : FileM ε α} {f : α → FileM ε β} {t : FileTree} {P Q : Except ε α → FileTree → Prop}
  {R : Except ε β → FileTree → Prop}

theorem of_run (h : Changes m t P) {r : Except ε α} {t' : FileTree} (hrun : m.run.run t = (r, t')) : P r t' := by
  rw [Changes, hrun] at h
  exact h

theorem run_eq {result : Except ε α × FileTree} (h : Changes m t fun r t' => (r, t') = result) : m.run.run t = result :=
  h

theorem self (m : FileM ε α) (t : FileTree) : Changes m t fun r t' => m.run.run t = (r, t') :=
  rfl

theorem mono (h : Changes m t Q) (hPQ : ∀ r t', Q r t' → P r t') : Changes m t P :=
  hPQ _ _ h

theorem and (h : Changes m t P) (h' : Changes m t Q) : Changes m t fun r t' => P r t' ∧ Q r t' :=
  ⟨h, h'⟩

theorem pure {a : α} (h : P (.ok a) t) : Changes (pure a) t P :=
  h

theorem throw {e : ε} (h : P (.error e) t) : Changes (throw e) t P :=
  h

theorem set {t' : FileTree} {P : Except ε Unit → FileTree → Prop} (h : P (.ok ()) t') : Changes (set t' : FileM ε Unit) t P :=
  h

theorem get_bind {f : FileTree → FileM ε β} (h : Changes (f t) t R) : Changes (get >>= f) t R :=
  h

theorem bind (h : Changes m t Q) (hok : ∀ a t', Q (.ok a) t' → Changes (f a) t' R)
    (herror : ∀ e t', Q (.error e) t' → R (.error e) t') : Changes (m >>= f) t R := by
  unfold Changes at h ⊢
  rw [ExceptT.run_bind, StateT.run_bind]
  generalize hrun : m.run.run t = result at h
  obtain ⟨r, t'⟩ := result
  cases r with
  | ok a => exact hok a t' h
  | error e => exact herror e t' h

theorem adapt {g : ε → ε'} {S : Except ε' α → FileTree → Prop} (h : Changes m t fun r t' => S (r.mapError g) t') :
    Changes (m.adapt g) t S :=
  h

theorem adapt_bind {g : ε → ε'} {f : α → FileM ε' β} {S : Except ε' β → FileTree → Prop} (h : Changes m t Q)
    (hok : ∀ a t', Q (.ok a) t' → Changes (f a) t' S) (herror : ∀ e t', Q (.error e) t' → S (.error (g e)) t') :
    Changes (m.adapt g >>= f) t S := by
  refine bind (Q := fun r t' => ∃ r', r = r'.mapError g ∧ Q r' t') (adapt (h.mono fun r t' hQ => ⟨r, rfl, hQ⟩)) ?_ ?_
  · rintro _ t' ⟨r, hr, hQ⟩
    cases r with
    | error => cases hr
    | ok => cases hr; exact hok _ t' hQ
  · rintro _ t' ⟨r, hr, hQ⟩
    cases r with
    | ok => cases hr
    | error => cases hr; exact herror _ t' hQ

end Changes

namespace FileM

variable {t : FileTree} {p : Path} {content more : Bytes}

theorem change_changes (f : FileTree → Except FileError FileTree) (t : FileTree) : Changes (change f) t fun r t' =>
    r = .ok () ∧ f t = .ok t' ∨ ∃ e, r = .error e ∧ f t = .error e ∧ t' = t := by
  refine .get_bind ?_
  cases f t with
  | ok t' => exact .set (.inl ⟨rfl, rfl⟩)
  | error e => exact .throw (.inr ⟨e, rfl, rfl, rfl⟩)

/-- How writing a file ends. -/
inductive Wrote (t : FileTree) (p : Path) (content : Bytes) : Except FileError Unit → FileTree → Prop
  | written {l : Location} {t' : FileTree} (h : t.Written p l content t') : Wrote t p content (.ok ()) t'
  | refused {e : FileError} (h : ∀ l, ¬ t.Writable p l) : Wrote t p content (.error e) t

theorem writeFile_changes (t : FileTree) (p : Path) (content : Bytes) :
    Changes (writeFile p content) t (Wrote t p content) := by
  refine (change_changes _ t).mono ?_
  rintro _ t' (⟨rfl, h⟩ | ⟨e, rfl, h, rfl⟩)
  · obtain ⟨l, hl, rfl⟩ := (FileTree.writeFile_eq_ok_iff ..).1 h
    exact .written (hl.written content)
  · refine .refused fun l hl => ?_
    rw [(FileTree.writeFile_eq_ok_iff ..).2 ⟨l, hl, rfl⟩] at h
    cases h

/-- How adding to the end of a file ends. -/
inductive Appended (t : FileTree) (p : Path) (more : Bytes) : Except FileError Unit → FileTree → Prop
  | appended {l : Location} {old : Bytes} {t' : FileTree} (hlocate : t.locate p = .ok l)
      (hfile : t.get? l = some (.file old)) (h : t.Written p l (old ++ more) t') : Appended t p more (.ok ()) t'
  | refused {e : FileError} (h : ∀ old, t.lookup p ≠ .ok (.file old)) : Appended t p more (.error e) t

theorem appendFile_changes (t : FileTree) (p : Path) (more : Bytes) :
    Changes (appendFile p more) t (Appended t p more) := by
  refine (change_changes _ t).mono ?_
  rintro _ t' (⟨rfl, h⟩ | ⟨e, rfl, h, rfl⟩)
  · obtain ⟨l, old, hl, hfile, rfl⟩ := (FileTree.appendFile_eq_ok_iff ..).1 h
    exact .appended hl hfile ((FileTree.writable_of_locate hl hfile).written _)
  · refine .refused fun old hold => ?_
    obtain ⟨l, hl, hfile⟩ := (FileTree.lookup_eq_ok_iff ..).1 hold
    rw [(FileTree.appendFile_eq_ok_iff ..).2 ⟨l, old, hl, hfile, rfl⟩] at h
    cases h

/-- Where the directory is there, it does not matter that it cannot be made. -/
theorem excuse_changes (p : Path) (t : FileTree) (e : FileError) :
    Changes (do if (← get).isDirectory p then pure () else throw e : FileM FileError Unit) t fun r t' =>
      t' = t ∧ (r = .ok () → t.isDirectory p = true) := by
  refine .get_bind ?_
  split
  next hdir => exact .pure ⟨rfl, fun _ => hdir⟩
  · exact .throw ⟨rfl, nofun⟩

theorem excuse_ok (h : t.isDirectory p = true) (e : FileError) :
    Changes (do if (← get).isDirectory p then pure () else throw e : FileM FileError Unit) t fun r t' =>
      r = .ok () ∧ t' = t := by
  refine .get_bind ?_
  rw [if_pos h]
  exact .pure ⟨rfl, rfl⟩

theorem makeDirectoriesWithin_changes (fuel : Nat) (p : Path) (t : FileTree) :
    Changes (makeDirectoriesWithin fuel p) t fun r t' =>
      t.Furnished p.Within t' ∧ (r = .ok () → p.isEmpty = true ∨ t'.isDirectory p = true) := by
  induction fuel generalizing p t with
  | zero => exact .throw ⟨.refl t _, nofun⟩
  | succ fuel ih =>
    rw [makeDirectoriesWithin]
    split
    next hempty => exact .pure ⟨.refl t _, fun _ => .inl hempty⟩
    refine .get_bind ?_
    split
    next t' hmade =>
      obtain ⟨hdir, hfurnished⟩ := FileTree.makeDirectory_eq_ok hmade
      exact .set ⟨hfurnished.mono fun q hq => by rw [hq]; exact .refl, fun _ => .inr hdir⟩
    next =>
      cases hparent : p.parent? with
      | none => exact .throw ⟨.refl t _, nofun⟩
      | some around =>
        refine .bind (ih around t) (fun _ t' ⟨hfurnished, _⟩ => ?_) fun e t' ⟨hfurnished, _⟩ => ?_
        · have hfurnished : t.Furnished p.Within t' := hfurnished.mono fun q hq => .head hparent hq
          refine .get_bind ?_
          split
          next t'' hmade =>
            obtain ⟨hdir, hfurnished'⟩ := FileTree.makeDirectory_eq_ok hmade
            exact .set ⟨hfurnished.trans (hfurnished'.mono fun q hq => by rw [hq]; exact .refl), fun _ => .inr hdir⟩
          next e _ =>
            refine (excuse_changes p t' e).mono ?_
            rintro r t'' ⟨rfl, hdir⟩
            exact ⟨hfurnished, fun hr => .inr (hdir hr)⟩
        · exact ⟨hfurnished.mono fun q hq => .head hparent hq, nofun⟩
    next e _ _ =>
      refine (excuse_changes p t e).mono ?_
      rintro r t' ⟨rfl, hdir⟩
      exact ⟨.refl _ _, fun hr => .inr (hdir hr)⟩

/-- Whether it ends well or not, making directories changes nothing else. -/
theorem makeDirectories_changes (p : Path) (t : FileTree) : Changes (makeDirectories p) t fun r t' =>
    t.Furnished p.Within t' ∧ (r = .ok () → p.isEmpty = true ∨ t'.isDirectory p = true) :=
  makeDirectoriesWithin_changes _ p t

/-- Where the directory is there already, there is nothing to do. -/
theorem makeDirectories_of_isDirectory (h : t.isDirectory p = true) :
    Changes (makeDirectories p) t fun r t' => r = .ok () ∧ t' = t := by
  rw [makeDirectories, makeDirectoriesWithin]
  split
  · exact .pure ⟨rfl, rfl⟩
  refine .get_bind ?_
  rw [FileTree.makeDirectory_of_isDirectory h]
  exact excuse_ok h _

end FileM

end FrozenApp
