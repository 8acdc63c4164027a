import FrozenApp.Proofs.Options
import FrozenApp.Proofs.Text
/-!
# What the names of options mean

`Says` gives each name that means anything the options it stands for, and what two
lists of names mean one behind the other is put together from what each of them means
(`Options.merge`). `ofNames_meaning`: this is how names are read. So the options of a
package follow from those of its names, whatever their number and order.
-/

namespace FrozenApp

/-- The options of two lists of names, the second behind the first. -/
def InterpreterOptions.merge (o o' : InterpreterOptions) : InterpreterOptions where
  verbose := o.verbose + o'.verbose
  unbuffered := o.unbuffered || o'.unbuffered
  optimize := o.optimize + o'.optimize
  hashSeed := o'.hashSeed.or o.hashSeed
  utf8Mode := o'.utf8Mode.or o.utf8Mode
  devMode := o.devMode || o'.devMode
  warnOptions := o.warnOptions ++ o'.warnOptions
  xOptions := o.xOptions ++ o'.xOptions

/-- The options of two lists of names, the second behind the first. -/
def LaunchOptions.merge (o o' : LaunchOptions) : LaunchOptions where
  contentsDirectory := o'.contentsDirectory.or o.contentsDirectory
  freeThreaded := o.freeThreaded || o'.freeThreaded

namespace Options

open Interpreter Text

/-- The options of two lists of names, the second behind the first. -/
def merge (o o' : Options) : Options where
  interpreter := o.interpreter.merge o'.interpreter
  launch := o.launch.merge o'.launch

@[simp]
theorem merge_empty (o : Options) : o.merge {} = o := by
  obtain ⟨⟨⟩, ⟨⟩⟩ := o
  simp [merge, InterpreterOptions.merge, LaunchOptions.merge]

theorem merge_assoc (o o' o'' : Options) : (o.merge o').merge o'' = o.merge (o'.merge o'') := by
  simp [merge, InterpreterOptions.merge, LaunchOptions.merge, Int32.add_assoc, Bool.or_assoc, Option.or_assoc]

/-! ## Names one behind the other -/

/-- The modes that an extended option of the interpreter leaves as they are or switches. -/
theorem switchMode_eq (o : InterpreterOptions) (option : String) :
    switchMode o option = o.merge (switchMode {} option) := by
  rw [switchMode, switchMode]
  split
  · simp [InterpreterOptions.merge]
  split
  · simp [InterpreterOptions.merge]
  split
  · simp [InterpreterOptions.merge]
  · simp [InterpreterOptions.merge]

/-- A setting does the same to all options: it adds what it comes to on its own. -/
theorem apply_eq (o : Options) (name : String) (s : Setting) : o.apply name s = (apply {} name s).map o.merge := by
  cases s with
  | hashSeed seed =>
    cases seed with
    | error e => rfl
    | ok seed => simp [apply, Except.map, merge, InterpreterOptions.merge, LaunchOptions.merge]
  | x option =>
    simp only [apply]
    rw [switchMode_eq]
    simp [Except.map, merge, InterpreterOptions.merge, LaunchOptions.merge]
  | unknownFlag | onefile | unknown => exact congrArg Except.ok (merge_empty o).symm
  | _ => simp [apply, Except.map, merge, InterpreterOptions.merge, LaunchOptions.merge]

theorem addNames_eq (o : Options) (names : List String) : addNames o names = (addNames {} names).map o.merge := by
  induction names generalizing o with
  | nil => exact congrArg Except.ok (merge_empty o).symm
  | cons name names ih =>
    rw [addNames, List.foldlM_cons, addNames, List.foldlM_cons, apply_eq]
    cases happly : apply {} name (read name) with
    | error e => rfl
    | ok first =>
      show addNames (o.merge first) names = (addNames first names).map o.merge
      rw [ih (o.merge first), ih first]
      cases addNames {} names with
      | error e => rfl
      | ok rest => exact congrArg Except.ok (merge_assoc o first rest)

/-- What two lists of names come to, the second behind the first. -/
def both (r r' : Except Error Options) : Except Error Options :=
  match r, r' with
  | .error e, _ => .error e
  | .ok _, .error e => .error e
  | .ok o, .ok o' => .ok (o.merge o')

theorem addNames_append (names names' : List String) :
    addNames {} (names ++ names') = both (addNames {} names) (addNames {} names') := by
  rw [addNames, List.foldlM_append]
  show (addNames {} names >>= fun o => addNames o names') = _
  cases addNames {} names with
  | error e => rfl
  | ok o =>
    show addNames o names' = _
    rw [addNames_eq]
    cases addNames {} names' <;> rfl

/-! ## One name -/

/-- The UTF-8 mode that an extended option of the interpreter asks for. -/
def utf8ModeIn (option : String) : Option Bool :=
  if option = "utf8" ∨ option = "utf8=1" then some true
  else if option = "utf8=0" then some false
  else none

/-- What a name means, with one case for each form that means anything. A value stands
behind the first space, without the white space at its ends. -/
inductive Says : String → Except Error Options → Prop
  | verbose {name : String} (h : name = "v" ∨ name = "verbose") :
      Says name (.ok { interpreter := { verbose := 1 } })
  | optimize {name : String} (h : name = "O" ∨ name = "optimize") :
      Says name (.ok { interpreter := { optimize := 1 } })
  | unbuffered {name : String} (h : name = "u" ∨ name = "unbuffered") :
      Says name (.ok { interpreter := { unbuffered := true } })
  | warn {rest value : String} (h : Trimmed rest value) :
      Says ("W" ++ " " ++ rest) (.ok { interpreter := { warnOptions := [value] } })
  | extended {rest value : String} (h : Trimmed rest value) :
      Says ("X" ++ " " ++ rest) (.ok { interpreter :=
        { xOptions := [value], utf8Mode := utf8ModeIn value, devMode := value = "dev" ∨ value = "dev=1" } })
  | contentsDirectory {rest value : String} (h : Trimmed rest value) :
      Says ("pyi-contents-directory" ++ " " ++ rest) (.ok { launch := { contentsDirectory := some value } })
  | freeThreaded {rest : String} (h : Trimmed rest "Py_GIL_DISABLED") :
      Says ("pyi-python-flag" ++ " " ++ rest) (.ok { launch := { freeThreaded := true } })
  | hashSeed {rest value : String} {seed : UInt64} (h : Trimmed rest value) (hseed : Spells value seed) :
      Says ("hash_seed=" ++ rest) (.ok { interpreter := { hashSeed := some seed } })
  | badSeed {rest value : String} {e : NumberError} (h : Trimmed rest value) (hseed : ∀ seed, ¬ Spells value seed)
      (he : parseUInt64 value = .error e) :
      Says ("hash_seed=" ++ rest) (.error (.badSeed ("hash_seed=" ++ rest) e))

/-- A setting that is not passed over. -/
def Setting.IsUsed : Setting → Prop
  | .unknownFlag _ | .onefile | .unknown => False
  | _ => True

/-- What stands ahead of the first space of a name is its key. -/
theorem splitName_append {key : String} (h : ' ' ∉ key.toList) (rest : String) :
    splitName (key ++ " " ++ rest) = (key, some (trim rest)) := by
  have hkey : ∀ c ∈ key.toList, decide (c ≠ ' ') = true := by
    rintro c hc
    rw [decide_eq_true_eq]
    rintro rfl
    exact h hc
  have hname : (key ++ " " ++ rest).toList = key.toList ++ ' ' :: rest.toList := by simp
  rw [splitName, hname, List.takeWhile_append_of_pos hkey, List.dropWhile_append_of_pos hkey]
  simp

theorem splitName_cases (name : String) :
    splitName name = (name, none) ∨ ∃ key rest, ' ' ∉ key.toList ∧ name = key ++ " " ++ rest := by
  cases hrest : name.toList.dropWhile (· ≠ ' ') with
  | nil => exact .inl (by rw [splitName, hrest])
  | cons c rest =>
    refine .inr ⟨String.ofList (name.toList.takeWhile (· ≠ ' ')), String.ofList rest, ?_, ?_⟩
    · rw [String.toList_ofList]
      intro hspace
      simpa using List.mem_takeWhile_imp hspace
    · have hc : c = ' ' := by
        have hne : name.toList.dropWhile (· ≠ ' ') ≠ [] := by rw [hrest]; simp
        have hhead := List.head_dropWhile_not (· ≠ ' ') hne
        simp only [hrest, List.head_cons] at hhead
        simpa using hhead
      have hname : name.toList.takeWhile (· ≠ ' ') ++ c :: rest = name.toList := by
        rw [← hrest, List.takeWhile_append_dropWhile]
      rw [← String.toList_inj]
      refine hname.symm.trans ?_
      rw [hc]
      simp

theorem readOther_hashSeed (rest : String) :
    readOther ("hash_seed=" ++ rest) = .hashSeed (parseUInt64 (trim rest)) := by
  simp [readOther, hashSeedKey]

theorem readOther_cases (name : String) :
    readOther name = .unknown ∨ ∃ rest, name = "hash_seed=" ++ rest := by
  rw [readOther]
  split
  · next hprefix =>
    obtain ⟨rest, hrest⟩ := List.isPrefixOf_iff_prefix.1 hprefix
    refine .inr ⟨String.ofList rest, ?_⟩
    rw [← String.toList_inj]
    simpa [hashSeedKey] using hrest.symm
  · exact .inl rfl

/-- A name that begins like that of a seed is no flag and has none of the keys. -/
theorem read_hashSeed (rest : String) : read ("hash_seed=" ++ rest) = .hashSeed (parseUInt64 (trim rest)) := by
  have hother := readOther_hashSeed rest
  have hne : ∀ {key s : String}, key.toList.head? = some 'h' → s.toList.head? ≠ some 'h' → key ≠ s := by
    rintro key _ hkey hs rfl
    exact hs hkey
  rcases splitName_cases ("hash_seed=" ++ rest) with hsplit | ⟨key, rest', hspace, hname⟩
  · have hhead : ("hash_seed=" ++ rest).toList.head? = some 'h' := by simp
    have hne := fun {s} => hne (s := s) hhead
    simp [read, hsplit, hother, hne (s := "v") (by decide), hne (s := "verbose") (by decide),
      hne (s := "u") (by decide), hne (s := "unbuffered") (by decide), hne (s := "O") (by decide),
      hne (s := "optimize") (by decide), hne (s := ignoreSignalsKey) (by decide)]
  · have hhead : key.toList.head? = some 'h' := by
      have hlist := congrArg String.toList hname
      cases hkey : key.toList with
      | nil => simp [hkey] at hlist
      | cons c cs =>
        simp [hkey] at hlist
        rw [List.head?_cons, hlist.1]
    have hne := fun {s} => hne (s := s) hhead
    rw [hname] at hother ⊢
    simp [read, splitName_append hspace, hother, hne (s := "W") (by decide), hne (s := "X") (by decide),
      hne (s := contentsDirectoryKey) (by decide), hne (s := buildFlagKey) (by decide),
      hne (s := runtimeTmpdirKey) (by decide)]

/-- How a name with a value is read. -/
theorem read_append {key : String} (h : ' ' ∉ key.toList) (rest : String) : read (key ++ " " ++ rest) =
    if key = "W" then .warn (trim rest)
    else if key = "X" then .x (trim rest)
    else if key = contentsDirectoryKey then .contentsDirectory (trim rest)
    else if key = buildFlagKey then
      if trim rest = freeThreadedFlag then .freeThreaded else .unknownFlag (trim rest)
    else if key = runtimeTmpdirKey then .onefile
    else readOther (key ++ " " ++ rest) := by
  rw [read, splitName_append h]

/-- What an extended option comes to on its own. -/
theorem switchMode_empty (option : String) : switchMode {} option =
    { utf8Mode := utf8ModeIn option, devMode := option = "dev" ∨ option = "dev=1" } := by
  rw [switchMode, utf8ModeIn]
  split
  · next hon =>
    have hdev : ¬ (option = "dev" ∨ option = "dev=1") := by rcases hon with rfl | rfl <;> decide
    simp [hdev]
  split
  · next hoff => simp [hoff]
  split
  · next hdev => simp [hdev]
  · next hdev => simp [hdev]

/-- A name that means something is not passed over, and comes to what it means. -/
theorem Says.apply_read {name : String} {r : Except Error Options} (h : Says name r) :
    (read name).IsUsed ∧ apply {} name (read name) = r := by
  cases h with
  | verbose h | optimize h | unbuffered h => rcases h with rfl | rfl <;> exact ⟨trivial, rfl⟩
  | warn h =>
    rw [read_append (by decide), if_pos rfl, h.trim_eq]
    exact ⟨trivial, rfl⟩
  | extended h =>
    rw [read_append (by decide), if_neg (by decide), if_pos rfl, h.trim_eq]
    refine ⟨trivial, ?_⟩
    rw [apply, switchMode_empty]
    rfl
  | contentsDirectory h =>
    rw [read_append (by decide), if_neg (by decide), if_neg (by decide),
      if_pos (show "pyi-contents-directory" = contentsDirectoryKey from rfl), h.trim_eq]
    exact ⟨trivial, rfl⟩
  | freeThreaded h =>
    rw [read_append (by decide), if_neg (by decide), if_neg (by decide), if_neg (by decide),
      if_pos (show "pyi-python-flag" = buildFlagKey from rfl), h.trim_eq,
      if_pos (show "Py_GIL_DISABLED" = freeThreadedFlag from rfl)]
    exact ⟨trivial, rfl⟩
  | @hashSeed rest value seed h hseed =>
    rw [read_hashSeed, h.trim_eq, (parseUInt64_eq_ok_iff value seed).2 hseed]
    exact ⟨trivial, rfl⟩
  | badSeed h hseed he =>
    rw [read_hashSeed, h.trim_eq, he]
    exact ⟨trivial, rfl⟩

theorem says_readOther {name : String} (h : (readOther name).IsUsed) : Says name (apply {} name (readOther name)) := by
  rcases readOther_cases name with hunknown | ⟨rest, rfl⟩
  · rw [hunknown] at h
    exact h.elim
  · rw [readOther_hashSeed]
    have htrimmed := trimmed_trim rest
    cases hseed : parseUInt64 (trim rest) with
    | ok seed => exact .hashSeed htrimmed ((parseUInt64_eq_ok_iff _ _).1 hseed)
    | error e =>
      refine .badSeed htrimmed (fun seed hspells => ?_) hseed
      rw [(parseUInt64_eq_ok_iff _ _).2 hspells] at hseed
      cases hseed

/-- A name that is not passed over means what it comes to. -/
theorem says_of_isUsed {name : String} (h : (read name).IsUsed) : Says name (apply {} name (read name)) := by
  rcases splitName_cases name with hsplit | ⟨key, rest, hspace, rfl⟩
  · simp only [read, hsplit] at h ⊢
    split_ifs at h ⊢ with hv hu ho hi
    · exact .verbose hv
    · exact .unbuffered hu
    · exact .optimize ho
    · exact h.elim
    · exact says_readOther h
  · rw [read_append hspace] at h ⊢
    have htrimmed := trimmed_trim rest
    split_ifs at h ⊢ with hw hx hc hf hg ht
    · subst hw
      exact .warn htrimmed
    · subst hx
      simp only [apply, switchMode_empty]
      exact .extended htrimmed
    · subst hc
      exact .contentsDirectory htrimmed
    · subst hf
      rw [hg] at htrimmed
      exact .freeThreaded htrimmed
    · exact h.elim
    · exact h.elim
    · exact says_readOther h

theorem apply_of_not_isUsed {s : Setting} (o : Options) (name : String) (h : ¬ s.IsUsed) : o.apply name s = .ok o := by
  cases s with
  | unknownFlag | onefile | unknown => rfl
  | _ => exact absurd trivial h

/-- A name comes to what it means, and one without a meaning to no options. -/
theorem addNames_singleton_iff (name : String) (r : Except Error Options) :
    addNames {} [name] = r ↔ Says name r ∨ (∀ r', ¬ Says name r') ∧ r = .ok {} := by
  have hsingle : addNames {} [name] = apply {} name (read name) := by
    rw [addNames, List.foldlM_cons]
    cases apply {} name (read name) <;> rfl
  rw [hsingle]
  constructor
  · rintro rfl
    by_cases hused : (read name).IsUsed
    · exact .inl (says_of_isUsed hused)
    · exact .inr ⟨fun r' hname => hused hname.apply_read.1, apply_of_not_isUsed {} name hused⟩
  · rintro (hname | ⟨hnone, rfl⟩)
    · exact hname.apply_read.2
    · have hunused : ¬ (read name).IsUsed := fun hused => hnone _ (says_of_isUsed hused)
      exact apply_of_not_isUsed {} name hunused

/-! ## All names -/

theorem ofNames_eq (names : List String) (t : Trace) : ((ofNames names).run.run t).1 = addNames {} names := by
  obtain ⟨-, -, -, h, -⟩ := addAll_goes {} names t
  exact h

theorem toInt_add_of_fits {n m : Int32} (hlow : Int32.minValue.toInt ≤ n.toInt + m.toInt)
    (hhigh : n.toInt + m.toInt ≤ Int32.maxValue.toInt) : (n + m).toInt = n.toInt + m.toInt := by
  have hmin : Int32.minValue.toInt = -2147483648 := by decide
  have hmax : Int32.maxValue.toInt = 2147483647 := by decide
  rw [Int32.toInt_add]
  exact Int.bmod_eq_of_le (by omega) (by omega)

/-- Names one behind the other come to what both lists of names come to, the first error
ahead of all others, and counters that fit are sums. A name on its own comes to what it
means. -/
theorem ofNames_meaning (t : Trace) :
    (∀ names names' : List String, ((ofNames (names ++ names')).run.run t).1 =
      both ((ofNames names).run.run t).1 ((ofNames names').run.run t).1) ∧
    (∀ o o' : Options, ∀ counter ∈ [InterpreterOptions.verbose, InterpreterOptions.optimize],
      Int32.minValue.toInt ≤ (counter o.interpreter).toInt + (counter o'.interpreter).toInt →
      (counter o.interpreter).toInt + (counter o'.interpreter).toInt ≤ Int32.maxValue.toInt →
      (counter (o.merge o').interpreter).toInt = (counter o.interpreter).toInt + (counter o'.interpreter).toInt) ∧
    ∀ (name : String) (r : Except Error Options), ((ofNames [name]).run.run t).1 = r ↔
      Says name r ∨ (∀ r', ¬ Says name r') ∧ r = .ok {} := by
  simp only [ofNames_eq]
  refine ⟨addNames_append, fun o o' counter hcounter hlow hhigh => ?_, addNames_singleton_iff⟩
  simp only [List.mem_cons, List.not_mem_nil, or_false] at hcounter
  rcases hcounter with rfl | rfl
  · exact toInt_add_of_fits hlow hhigh
  · exact toInt_add_of_fits hlow hhigh

end Options

end FrozenApp
