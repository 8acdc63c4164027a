import FrozenApp.Launch
import FrozenApp.Proofs.Interpreter.Acts
import FrozenApp.Proofs.Utf8
/-!
# Which library is loaded

What comes of a candidate does not depend on what was done before
(`Loader.outcome`). `loadFirst_gives`: the candidates are tried in their order up
to the first one that can be bound, and no function is called.
-/

namespace FrozenApp.Interpreter

@[simp]
theorem attempts_append (s t : Trace) : Trace.attempts (s ++ t) = s.attempts ++ t.attempts :=
  List.filterMap_append

@[simp]
theorem closings_append (s t : Trace) : Trace.closings (s ++ t) = s.closings ++ t.closings :=
  List.filterMap_append

/-- What a failed attempt closes. -/
def BindError.closings : BindError → List Path
  | unopened .. => []
  | missing path _ => [path]

/-- No function is called; this is what is tried, and what is closed. -/
structure Quiet (attempts : List (Path × Version)) (closings : List Path) (new : Trace) : Prop where
  attempts : new.attempts = attempts
  closings : new.closings = closings
  calls : new.calls = []

/-- Whatever was done before, a program gives this and calls no function, with
what it tries and closes. -/
def Gives {α : Type} (m : StateM Trace α) (a : α) (attempts : List (Path × Version)) (closings : List Path) : Prop :=
  Leaves m fun b new => b = a ∧ Quiet attempts closings new

namespace Gives

variable {α β : Type} {m : StateM Trace α} {f : α → StateM Trace β} {a : α} {b : β}
  {attempts attempts' : List (Path × Version)} {closings closings' : List Path}

theorem pure : Gives (pure a) a [] [] :=
  Leaves.pure ⟨rfl, rfl, rfl, rfl⟩

theorem bind (h : Gives m a attempts closings) (hf : Gives (f a) b attempts' closings') :
    Gives (m >>= f) b (attempts ++ attempts') (closings ++ closings') := by
  refine Leaves.bind h ?_
  rintro _ new ⟨rfl, hnew⟩
  refine Leaves.mono hf fun _ new' ⟨hb, hnew'⟩ => ⟨hb, ?_, ?_, ?_⟩
  · rw [attempts_append, hnew.attempts, hnew'.attempts]
  · rw [closings_append, hnew.closings, hnew'.closings]
  · rw [calls_append, hnew.calls, hnew'.calls, List.append_nil]

theorem bind_pure (h : Gives m a attempts closings) (hf : f a = Pure.pure b) :
    Gives (m >>= f) b attempts closings := by
  have hlast : Gives (f a) b [] [] := by
    rw [hf]
    exact pure
  have hbind := h.bind hlast
  rwa [List.append_nil, List.append_nil] at hbind

theorem tried (path : Path) (version : Version) : Gives (emit (.tried path version)) () [(path, version)] [] :=
  Leaves.emit ⟨rfl, rfl, rfl, rfl⟩

theorem closed (path : Path) : Gives (emit (.closed path)) () [] [path] :=
  Leaves.emit ⟨rfl, rfl, rfl, rfl⟩

theorem debug {message : String} : Gives (debug message) () [] [] :=
  Leaves.emit ⟨rfl, rfl, rfl, rfl⟩

theorem debug_bind {message : String} {f : Unit → StateM Trace β} (h : Gives (f ()) b attempts closings) :
    Gives (Interpreter.debug message >>= f) b attempts closings :=
  debug.bind h

theorem debugEach (message : String → String) (names : List String) :
    Gives (forIn names PUnit.unit fun name _ => do
      Interpreter.debug (message name)
      Pure.pure (ForInStep.yield PUnit.unit)) PUnit.unit [] [] := by
  induction names with
  | nil => exact pure
  | cons name names ih =>
    rw [List.forIn_cons, bind_assoc]
    exact debug_bind ih

theorem leaves {R : α → Trace → Prop} (h : Gives m a attempts closings) (hR : ∀ new, Quiet attempts closings new → R a new) :
    Leaves m R := by
  refine Leaves.mono h ?_
  rintro _ new ⟨rfl, hnew⟩
  exact hR new hnew

/-- What a program gives does not depend on what was done before. -/
theorem eq (h : Gives m a attempts closings) (t : Trace) : (m.run t).1 = a := by
  obtain ⟨new, -, ha, -⟩ := h t
  exact ha

end Gives

/-! ## One candidate -/

/-- What loading a library can come to, with what it closes. -/
inductive Loaded (path : Path) (version : Version) : Except BindError Library → List Path → Prop
  | bound {lib : Library} (hpath : lib.path = path) (hversion : lib.version = version) : Loaded path version (.ok lib) []
  | failed (e : BindError) : Loaded path version (.error e) e.closings

theorem bind_gives (image : Image) (path : Path) (version : Version) :
    ∃ r closings, Gives (Library.bind image path version) r [] closings ∧ Loaded path version r closings := by
  rw [Library.bind]
  split
  · exact ⟨_, _, Gives.debug_bind Gives.pure, .bound rfl rfl⟩
  · extract_lets names
    exact ⟨_, _, (Gives.closed path).bind ((Gives.debugEach _ names).bind Gives.pure), .failed (.missing path names)⟩

/-- What comes of loading a library. -/
def Loader.outcome (loader : Loader) (path : Path) (version : Version) : Except BindError Library :=
  ((loader.load path version).run []).1

theorem load_gives (loader : Loader) (path : Path) (version : Version) :
    ∃ closings, Gives (loader.load path version) (loader.outcome path version) [(path, version)] closings ∧
      Loaded path version (loader.outcome path version) closings := by
  obtain ⟨r, closings, hload, hloaded⟩ : ∃ r closings,
      Gives (loader.load path version) r [(path, version)] closings ∧ Loaded path version r closings := by
    rw [Loader.load]
    cases loader.open? path with
    | error message =>
      refine ⟨_, _, (Gives.tried path version).bind ?_, .failed (.unopened path message)⟩
      cases loader.announces with
      | true => exact Gives.debug_bind Gives.pure
      | false => exact Gives.pure
    | ok image =>
      obtain ⟨r, closings, hr, hloaded⟩ := bind_gives image path version
      refine ⟨r, closings, (Gives.tried path version).bind ?_, hloaded⟩
      cases loader.announces with
      | true => exact Gives.debug_bind hr
      | false => exact hr
  have houtcome : loader.outcome path version = r := hload.eq []
  rw [houtcome]
  exact ⟨closings, hload, hloaded⟩

end FrozenApp.Interpreter

namespace FrozenApp

open Interpreter

/-! ## Candidates -/

/-- What a search among candidates comes to: the result, the paths that it has
tried, and the errors there. -/
inductive Found (loader : Loader) (version : Version) :
    List Path → Except (Option BindError) Library → List Path → List BindError → Prop
  | none {paths : List Path} {errors : List BindError} (h : paths.map (loader.outcome · version) = errors.map .error) :
      Found loader version paths (.error errors.head?) paths errors
  | bound {failed rest : List Path} {path : Path} {errors : List BindError} {lib : Library}
      (h : failed.map (loader.outcome · version) = errors.map .error) (hlib : loader.outcome path version = .ok lib)
      (hpath : lib.path = path) (hversion : lib.version = version) :
      Found loader version (failed ++ path :: rest) (.ok lib) (failed ++ [path]) errors

theorem loadFirst_gives (loader : Loader) (version : Version) (paths : List Path) :
    ∃ r tried errors, Gives (loadFirst loader version paths) r (tried.map (·, version))
        (errors.flatMap BindError.closings) ∧ Found loader version paths r tried errors := by
  induction paths with
  | nil => exact ⟨_, [], [], Gives.pure, @Found.none loader version [] [] rfl⟩
  | cons path paths ih =>
    obtain ⟨closings, hload, hloaded⟩ := load_gives loader path version
    generalize houtcome : loader.outcome path version = outcome at hload hloaded
    rw [loadFirst]
    cases hloaded with
    | bound hpath hversion =>
      exact ⟨_, [path], [], hload.bind Gives.pure, @Found.bound _ _ [] paths path [] _ rfl houtcome hpath hversion⟩
    | failed e =>
      obtain ⟨r, tried, errors, hr, hfound⟩ := ih
      cases hfound with
      | none h =>
        refine ⟨_, path :: paths, e :: errors, hload.bind (Gives.debug_bind (hr.bind_pure rfl)), ?_⟩
        exact @Found.none _ _ _ (e :: errors) (by rw [List.map_cons, List.map_cons, houtcome, h])
      | @bound failed rest path' _ _ h hlib hpath hversion =>
        refine ⟨_, path :: (failed ++ [path']), e :: errors, hload.bind (Gives.debug_bind (hr.bind_pure rfl)), ?_⟩
        exact @Found.bound _ _ (path :: failed) rest path' (e :: errors) _
          (by rw [List.map_cons, List.map_cons, houtcome, h]) hlib hpath hversion

/-! ## The names of the candidates -/

theorem getLast?_ofString_append (s : String) {t : String} {b : UInt8} (h : (Bytes.ofString t).getLast? = some b) :
    (Bytes.ofString (s ++ t)).getLast? = some b := by
  rw [ofString_append, List.getLast?_append, h]
  rfl

theorem Path.getLast?_join (p : Path) {q : Path} {b : UInt8} (h : q.getLast? = some b) :
    (p.join q).getLast? = some b := by
  rw [join]
  split
  · exact h
  split
  · rw [List.getLast?_append, h]; rfl
  · rw [List.getLast?_append, List.getLast?_cons, h]; rfl

theorem endsWith_archive {name : String} (h : name.endsWith ".a" = true) : ∃ stem, name = stem ++ ".a" := by
  rw [String.endsWith_eq_endsWith_toSlice, String.Slice.endsWith_string_iff, String.copy_toSlice] at h
  obtain ⟨stem, hstem⟩ := h
  refine ⟨String.ofList stem, ?_⟩
  rw [← String.toList_inj, String.toList_append, ← hstem]
  exact congrArg (· ++ ".a".toList) String.toList_ofList.symm

theorem Host.libraryPaths_ne_nil (host : Host) (version : Version) : host.libraryPaths version ≠ [] := by
  rw [libraryPaths, candidateNames]
  split <;> simp

/-- No library is tried twice. -/
theorem Host.libraryPaths_nodup (host : Host) (version : Version) : (host.libraryPaths version).Nodup := by
  rw [libraryPaths, candidateNames]
  split
  · next h =>
    obtain ⟨stem, hstem⟩ := endsWith_archive h
    -- the first name ends in a letter, and the second in a bracket
    have hfirst : (host.home.join (.ofString host.archive.cookie.libraryName)).getLast? = some 97 := by
      rw [hstem]
      exact Path.getLast?_join _ (getLast?_ofString_append stem (t := ".a") (by decide))
    have hsecond : (host.home.join (.ofString s!"libpython{version.display}.a(libpython{version.display}.so)")).getLast? = some 41 :=
      Path.getLast?_join _ (getLast?_ofString_append _ (t := ".so)") (by decide))
    refine List.nodup_cons.2 ⟨fun hmem => ?_, by simp⟩
    have heq : host.home.join (.ofString host.archive.cookie.libraryName) = _ := List.mem_singleton.1 hmem
    rw [heq, hsecond] at hfirst
    exact absurd hfirst (by decide)
  · simp

end FrozenApp
