import FrozenApp.Proofs.Program.Plan
import FrozenApp.Proofs.Startup.Laws
/-!
# References to objects

Some functions hand out a reference to an object that has to be given back by
`decRef`, others only lend the object. An object can come out of several calls, so
references to it are counted. `Settles` follows the references in hand from call to
call; each step of the plan leaves none behind, whether it is carried out or ends
the run. `program_accounted`: a program gives every reference back, none of them
twice, and uses no object that it has let go of.
-/

namespace FrozenApp.Interpreter

open Startup (Guarded)

/-! ## Objects in calls -/

/-- The objects that a call is given. -/
def Call.objects : Call → List ObjectId
  | sysSetObject _ value => [value]
  | listAppend list item => [list, item]
  | decRef object => [object]
  | execCodeModule _ code => [code]
  | moduleGetDict module => [module]
  | setAttr object _ value => [object, value]
  | evalCode code globals locals => [code, globals, locals]
  | _ => []

/-- The object that a call hands out with a reference to be given back. -/
def owned? : Exchange → Option ObjectId
  | ⟨.decodeFsDefault _, o?⟩ => o?
  | ⟨.unicodeFromString _, o?⟩ => o?
  | ⟨.unmarshal _, o?⟩ => o?
  | ⟨.execCodeModule _ _, o?⟩ => o?
  | ⟨.evalCode _ _ _, o?⟩ => o?
  | _ => none

/-- The object that a call only lends. -/
def lent? : Exchange → Option ObjectId
  | ⟨.sysGetObject _, o?⟩ => o?
  | ⟨.addModule _, o?⟩ => o?
  | ⟨.moduleGetDict _, o?⟩ => o?
  | _ => none

/-- The object that a call gives a reference back to. -/
def dropped? : Exchange → Option ObjectId
  | ⟨.decRef o, _⟩ => some o
  | _ => none

/-- How many references to an object are handed out. -/
def handedOut (o : ObjectId) (l : List Exchange) : Nat :=
  (l.filterMap owned?).count o

/-- How many references to an object are given back. -/
def givenBack (o : ObjectId) (l : List Exchange) : Nat :=
  (l.filterMap dropped?).count o

theorem handedOut_cons (o : ObjectId) (x : Exchange) (l : List Exchange) :
    handedOut o (x :: l) = (owned? x).toList.count o + handedOut o l := by
  rw [handedOut, filterMap_cons_toList, List.count_append, handedOut]

theorem givenBack_cons (o : ObjectId) (x : Exchange) (l : List Exchange) :
    givenBack o (x :: l) = (dropped? x).toList.count o + givenBack o l := by
  rw [givenBack, filterMap_cons_toList, List.count_append, givenBack]

theorem givenBack_decRef (o p : ObjectId) (l : List Exchange) :
    givenBack o (⟨.decRef p, ()⟩ :: l) = [p].count o + givenBack o l :=
  givenBack_cons o _ l

theorem handedOut_decRef (o p : ObjectId) (l : List Exchange) : handedOut o (⟨.decRef p, ()⟩ :: l) = handedOut o l :=
  rfl

/-- A call that gives nothing back. -/
theorem givenBack_kept {x : Exchange} (h : dropped? x = none) (o : ObjectId) (l : List Exchange) :
    givenBack o (x :: l) = givenBack o l := by
  rw [givenBack, List.filterMap_cons_none h, givenBack]

theorem count_middle (ahead behind : List ObjectId) (p o : ObjectId) :
    (ahead ++ p :: behind).count o = [p].count o + (ahead ++ behind).count o := by
  have hcons : ([p] ++ (ahead ++ behind)).count o = _ := List.count_append
  exact (List.perm_middle.count_eq o).trans hcons

/-! ## References in hand -/

/-- Calls that start with these objects lent and with references to those held in
hand, use no other object, and give every reference back in the end. -/
inductive Settles : List ObjectId → List ObjectId → List Exchange → Prop
  | nil {lent} : Settles lent [] []
  | call {lent held} {x : Exchange} {l : List Exchange} (huses : ∀ o ∈ x.1.objects, o ∈ held ∨ o ∈ lent)
      (hkept : dropped? x = none) (h : Settles ((lent? x).toList ++ lent) ((owned? x).toList ++ held) l) :
      Settles lent held (x :: l)
  | giveBack {lent ahead behind} {o : ObjectId} {l : List Exchange} (h : Settles lent (ahead ++ behind) l) :
      Settles lent (ahead ++ o :: behind) (⟨.decRef o, ()⟩ :: l)

namespace Settles

variable {lent lent' held : List ObjectId} {l : List Exchange} {o p : ObjectId}

theorem giveBack_first (h : Settles lent held l) : Settles lent (o :: held) (⟨.decRef o, ()⟩ :: l) :=
  @giveBack lent [] held o l h

theorem giveBack_second (h : Settles lent (p :: held) l) : Settles lent (p :: o :: held) (⟨.decRef o, ()⟩ :: l) :=
  @giveBack lent [p] held o l h

/-- More may be lent than is used. -/
theorem weaken (h : Settles lent held l) (hsub : ∀ o ∈ lent, o ∈ lent') : Settles lent' held l := by
  induction h generalizing lent' with
  | nil => exact .nil
  | call huses hkept _ ih =>
    refine .call (fun o ho => (huses o ho).imp_right (hsub o)) hkept (ih fun o ho => ?_)
    rcases List.mem_append.1 ho with ho | ho
    · exact List.mem_append_left _ ho
    · exact List.mem_append_right _ (hsub o ho)
  | giveBack _ ih => exact .giveBack (ih hsub)

/-- As many references are given back as there are in hand and are handed out. -/
theorem givenBack_eq (h : Settles lent held l) (o : ObjectId) : givenBack o l = handedOut o l + held.count o := by
  induction h with
  | nil => rfl
  | call _ hkept _ ih =>
    rw [givenBack_kept hkept, handedOut_cons, ih, List.count_append]
    omega
  | giveBack _ ih =>
    rw [givenBack_decRef, handedOut_decRef, ih, count_middle]
    omega

/-- Only references in hand are given back, and an object is used only while there
is one in hand or if it is lent. -/
theorem covered (h : Settles lent held l) : Guarded (fun before x => ∀ o ∈ x.1.objects,
    givenBack o before < handedOut o before + held.count o ∨
      dropped? x = none ∧ (o ∈ lent ∨ o ∈ before.filterMap lent?)) l := by
  -- what the first call hands out or lends is counted as in hand or lent for the calls behind it
  induction h with
  | nil => exact .nil
  | @call lent held x l huses hkept _ ih =>
    refine .cons (fun o ho => ?_) (ih.mono fun b c hc o ho => ?_)
    · rcases huses o ho with ho | ho
      · exact .inl (by simpa [givenBack, handedOut] using ho)
      · exact .inr ⟨hkept, .inl ho⟩
    · rw [givenBack_kept hkept, handedOut_cons, filterMap_cons_toList, List.mem_append]
      rcases hc o ho with hlt | ⟨hc, hlent⟩
      · rw [List.count_append] at hlt
        exact .inl (by omega)
      · rw [List.mem_append] at hlent
        exact .inr ⟨hc, by tauto⟩
  | @giveBack lent ahead behind p l _ ih =>
    refine .cons (fun o ho => ?_) (ih.mono fun b c hc o ho => ?_)
    · cases List.mem_singleton.1 ho
      have hheld : 0 < (ahead ++ p :: behind).count p := List.count_pos_iff.2 (by simp)
      exact .inl (Nat.lt_of_lt_of_le hheld (Nat.le_add_left _ _))
    · rw [givenBack_decRef, handedOut_decRef, count_middle]
      rcases hc o ho with hlt | hlent
      · exact .inl (by omega)
      · exact .inr hlent

end Settles

/-- The references of a run are accounted for. -/
structure Accounted (l : List Exchange) : Prop where
  /-- As many references to an object are given back as are handed out. -/
  balanced : ∀ o, givenBack o l = handedOut o l
  /-- Only a reference in hand is given back. An object is used only while there is a
  reference to it in hand, or if it has been lent. -/
  covered : Guarded (fun before x => ∀ o ∈ x.1.objects, givenBack o before < handedOut o before ∨
    dropped? x = none ∧ o ∈ before.filterMap lent?) l
  /-- An object that is handed out once, and is none that is lent, is given back once
  and used no more. -/
  once : ∀ o, handedOut o l = 1 → o ∉ l.filterMap lent? → ∃ before behind, l = before ++ ⟨.decRef o, ()⟩ :: behind ∧
    (∀ x ∈ before, dropped? x ≠ some o) ∧ ∀ x ∈ behind, o ∉ x.1.objects
  /-- An object that is only lent is never given back. -/
  lent_kept : ∀ o, handedOut o l = 0 → ∀ x ∈ l, dropped? x ≠ some o

theorem givenBack_eq_zero_iff {o : ObjectId} {l : List Exchange} : givenBack o l = 0 ↔ ∀ x ∈ l, dropped? x ≠ some o := by
  rw [givenBack, List.count_eq_zero, List.mem_filterMap]
  exact ⟨fun h x hx ho => h ⟨x, hx, ho⟩, fun h ⟨x, hx, ho⟩ => h x hx ho⟩

theorem handedOut_append (o : ObjectId) (l l' : List Exchange) :
    handedOut o (l ++ l') = handedOut o l + handedOut o l' := by
  rw [handedOut, List.filterMap_append, List.count_append, handedOut, handedOut]

theorem givenBack_append (o : ObjectId) (l l' : List Exchange) :
    givenBack o (l ++ l') = givenBack o l + givenBack o l' := by
  rw [givenBack, List.filterMap_append, List.count_append, givenBack, givenBack]

/-- A reference that is given back is given back by one of the calls. -/
theorem exists_giveBack {o : ObjectId} {l : List Exchange} (h : 0 < givenBack o l) :
    ∃ before behind, l = before ++ ⟨.decRef o, ()⟩ :: behind := by
  obtain ⟨⟨call, answer⟩, hx, ho⟩ := List.mem_filterMap.1 (List.count_pos_iff.1 h)
  obtain ⟨before, behind, rfl⟩ := List.append_of_mem hx
  cases call <;> cases ho
  exact ⟨before, behind, rfl⟩

theorem Settles.accounted {l : List Exchange} (h : Settles [] [] l) : Accounted l := by
  have hbalanced (o) : givenBack o l = handedOut o l := by simpa using h.givenBack_eq o
  have hcovered := h.covered.mono (Q := fun before x => ∀ o ∈ x.1.objects,
    givenBack o before < handedOut o before ∨ dropped? x = none ∧ o ∈ before.filterMap lent?)
    fun b c hc o ho => by simpa using hc o ho
  refine ⟨hbalanced, hcovered, fun o hone hlent => ?_, fun o hzero => ?_⟩
  · obtain ⟨before, behind, rfl⟩ := exists_giveBack (o := o) (l := l) (by rw [hbalanced, hone]; exact Nat.one_pos)
    have hgiven := (hbalanced o).trans hone
    rw [givenBack_append, givenBack_decRef, List.count_singleton_self] at hgiven
    refine ⟨before, behind, rfl, givenBack_eq_zero_iff.1 (by omega), fun x hx hused => ?_⟩
    -- ahead of a later use the one reference has been given back already
    obtain ⟨between, rest, rfl⟩ := List.append_of_mem hx
    rw [← List.cons_append, ← List.append_assoc] at hcovered hone hlent
    rw [handedOut_append] at hone
    rcases hcovered _ x rest rfl o hused with hlt | ⟨-, hlent'⟩
    · rw [givenBack_append, givenBack_decRef, List.count_singleton_self] at hlt
      omega
    · exact hlent (by rw [List.filterMap_append]; exact List.mem_append_left _ hlent')
  · exact givenBack_eq_zero_iff.1 ((hbalanced o).trans hzero)

end FrozenApp.Interpreter

namespace FrozenApp.Program

open Interpreter Package

variable {files : FileTree} {archive : Archive} {home : Path} {lent held : List ObjectId}

theorem Drained.settles {l l' : List Exchange} (h : Drained l) (h' : Settles lent held l') : Settles lent held (l ++ l') := by
  cases h with
  | clean => exact .call nofun rfl h'
  | pending => exact .call nofun rfl (.call nofun rfl (.call nofun rfl h'))

theorem Drained.settles_nil {l : List Exchange} (h : Drained l) : Settles lent [] l :=
  List.append_nil l ▸ h.settles .nil

theorem FilePublished.settles {main : ObjectId} {raw : Bytes} {l l' : List Exchange} (h : FilePublished main raw l)
    (hmain : main ∈ lent) (h' : Settles lent [] l') : Settles lent [] (l ++ l') := by
  cases h with
  | skipped => exact .call nofun rfl h'
  | set done =>
    refine .call nofun rfl (.call ?_ rfl (.giveBack_first h'))
    simp [Call.objects, owned?, hmain]

/-- The objects that are lent to scripts. -/
def Scope.objects : Option Scope → List ObjectId
  | none => []
  | some scope => [scope.dict, scope.module]

theorem Done.settles {scope? scope?' : Option Scope} {step : PlanStep} {l l' : List Exchange}
    (h : Done files archive home scope? step scope?' l) (h' : Settles (Scope.objects scope?') [] l') :
    Settles (Scope.objects scope?) [] (l ++ l') := by
  cases h with
  | home => exact .call nofun rfl (.call (by simp [Call.objects, owned?]) rfl (.giveBack_first h'))
  | module _ _ hdrain =>
    refine .call nofun rfl (.call (by simp [Call.objects, owned?]) rfl (.giveBack_second ?_))
    simp only [List.append_eq, List.append_assoc]
    exact hdrain.settles (.giveBack_first h')
  | collection =>
    refine .call nofun rfl (.call nofun rfl (.call (by simp [Call.objects, owned?, lent?]) rfl (.giveBack_first ?_)))
    exact h'.weaken fun o ho => List.mem_cons_of_mem _ ho
  | main =>
    refine .call nofun rfl (.call (by simp [Call.objects, owned?, lent?]) rfl ?_)
    exact h'.weaken fun o ho => (List.mem_append_left (Scope.objects scope?) ho :)
  | @script scope _ _ _ _ _ set _ _ hpublish =>
    rw [List.append_assoc]
    refine hpublish.settles (by simp [Scope.objects]) ?_
    refine .call nofun rfl (.call (by simp [Call.objects, owned?, Scope.objects]) rfl ?_)
    refine .call (by simp [Call.objects, owned?, lent?, Scope.objects]) rfl ?_
    exact .giveBack_second (.giveBack_first h')

theorem Failed.settles {scope? : Option Scope} {step : PlanStep} {ending : Except LaunchError Int} {l : List Exchange}
    (h : Failed files archive home scope? step ending l) : Settles (Scope.objects scope?) [] l := by
  cases h with
  | homeNul | moduleNotExtracted | moduleNul | archivePathNul | scriptNotExtracted | scriptNul => exact .nil
  | homeNotConverted _ hdrain | moduleNotUnmarshalled _ _ hdrain => exact .call nofun rfl (hdrain.settles_nil)
  | homeNotSet _ hdrain | moduleNotRun _ _ hdrain =>
    exact .call nofun rfl (.call (by simp [Call.objects, owned?]) rfl (.giveBack_first hdrain.settles_nil))
  | noSearchPath | noMain => exact .call nofun rfl .nil
  | locationNotConverted _ hdrain => exact .call nofun rfl (.call nofun rfl hdrain.settles_nil)
  | locationNotAdded _ hdrain =>
    refine .call nofun rfl (.call nofun rfl (.call ?_ rfl (.giveBack_first hdrain.settles_nil)))
    simp [Call.objects, owned?, lent?]
  | noMainDict => exact .call nofun rfl (.call (by simp [Call.objects, lent?]) rfl .nil)
  | scriptNotUnmarshalled _ _ hpublish =>
    exact hpublish.settles (by simp [Scope.objects]) (.call nofun rfl (.call nofun rfl .nil))
  | raised _ _ _ hpublish =>
    refine hpublish.settles (by simp [Scope.objects]) ?_
    refine .call nofun rfl (.call (by simp [Call.objects, owned?, Scope.objects]) rfl ?_)
    refine .call (by simp [Call.objects, owned?, lent?, Scope.objects]) rfl (.giveBack_first ?_)
    exact .call nofun rfl .nil

theorem Followed.settles {scope? : Option Scope} {steps : List PlanStep} {next : Next} {l : List Exchange}
    (h : Followed files archive home scope? steps next l) : Settles (Scope.objects scope?) [] l := by
  induction h with
  | nil => exact .nil
  | cons hstep _ ih => exact hstep.settles ih
  | stopped hstep => exact hstep.settles

/-- Whatever the interpreter does, the references of a program are accounted for. -/
theorem program_accounted (host : Host) (files : FileTree) (lib : Library) :
    Goes (host.program files lib) fun _ l => Accounted l := by
  refine (program_goes host files lib).mono ?_
  rintro r l ⟨next, h, -⟩
  exact h.settles.accounted

end FrozenApp.Program
