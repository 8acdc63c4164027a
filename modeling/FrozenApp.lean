import FrozenApp.Interpreter.FileLoader
import FrozenApp.Interpreter.Scripted
import FrozenApp.Main
import FrozenApp.Proofs.Encoding
import FrozenApp.Proofs.Inspect.Extract
import FrozenApp.Proofs.Inspect.Layout
import FrozenApp.Proofs.Inspect.Locations
import FrozenApp.Proofs.Interpreter.Bind
import FrozenApp.Proofs.Launch
import FrozenApp.Proofs.Launcher
import FrozenApp.Proofs.Package.LibraryName
import FrozenApp.Proofs.Package.Tables
import FrozenApp.Proofs.Package.Tiling
import FrozenApp.Proofs.Package.Write
import FrozenApp.Proofs.Program.Attributes
import FrozenApp.Proofs.Program.Conversions
import FrozenApp.Proofs.Program.Errors
import FrozenApp.Proofs.Program.References
import FrozenApp.Proofs.Resolve
import FrozenApp.Proofs.Startup.Contents
import FrozenApp.Proofs.Startup.Strings
