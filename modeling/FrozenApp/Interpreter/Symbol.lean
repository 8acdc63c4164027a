/-!
# The functions of the interpreter

The interpreter lives in a shared library. The launcher uses thirty of its
functions, and all of them have to be there.
-/

namespace FrozenApp.Interpreter

/-- A function of the interpreter's library. -/
inductive Symbol where
  | decRef | decodeLocale | exitStatusException | finalize | initializeFromConfig | isInitialized
  | preInitialize | configClear | configInitIsolated | configSetBytesString | configSetString
  | configSetWideStringList | errClear | errOccurred | errPrint | evalCode | addModule
  | execCodeModule | listAppend | unmarshal | rawFree | moduleGetDict | setAttr
  | preConfigInitIsolated | runSimpleString | statusException | sysGetObject | sysSetObject
  | decodeFsDefault | unicodeFromString
  deriving Repr, DecidableEq

namespace Symbol

/-- The functions in the order they are looked up, with the names under which
the library exports them. -/
def table : List (Symbol × String) :=
  [(decRef, "Py_DecRef"), (decodeLocale, "Py_DecodeLocale"),
    (exitStatusException, "Py_ExitStatusException"), (finalize, "Py_Finalize"),
    (initializeFromConfig, "Py_InitializeFromConfig"), (isInitialized, "Py_IsInitialized"),
    (preInitialize, "Py_PreInitialize"), (configClear, "PyConfig_Clear"),
    (configInitIsolated, "PyConfig_InitIsolatedConfig"),
    (configSetBytesString, "PyConfig_SetBytesString"), (configSetString, "PyConfig_SetString"),
    (configSetWideStringList, "PyConfig_SetWideStringList"), (errClear, "PyErr_Clear"),
    (errOccurred, "PyErr_Occurred"), (errPrint, "PyErr_Print"), (evalCode, "PyEval_EvalCode"),
    (addModule, "PyImport_AddModule"), (execCodeModule, "PyImport_ExecCodeModule"),
    (listAppend, "PyList_Append"), (unmarshal, "PyMarshal_ReadObjectFromString"),
    (rawFree, "PyMem_RawFree"), (moduleGetDict, "PyModule_GetDict"),
    (setAttr, "PyObject_SetAttrString"),
    (preConfigInitIsolated, "PyPreConfig_InitIsolatedConfig"),
    (runSimpleString, "PyRun_SimpleStringFlags"), (statusException, "PyStatus_Exception"),
    (sysGetObject, "PySys_GetObject"), (sysSetObject, "PySys_SetObject"),
    (decodeFsDefault, "PyUnicode_DecodeFSDefault"), (unicodeFromString, "PyUnicode_FromString")]

/-- The functions in the order they are looked up. -/
def all : List Symbol := table.map (·.1)

/-- The name under which the library exports a function. -/
def name (s : Symbol) : String := (table.lookup s).getD ""

end Symbol

end FrozenApp.Interpreter
