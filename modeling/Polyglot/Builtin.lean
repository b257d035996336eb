import Polyglot.Registry

/-!
# The languages that come with the service

Twelve languages are served when the settings name none. Each has a toolchain that
must be installed for it to work.
-/

set_option autoImplicit false

namespace Polyglot.Builtin

/-- The port of the proxied built-in backend. -/
def javaPort : UInt16 := 8001

/-- A class whose method answers a known text. -/
def javaCheck : ReadyCheck where
  code := "\n".intercalate
    ["public class TestClass \x7b", "    public String testMethod() \x7b",
     "        return \"Works!\";", "    \x7d", "\x7d"]
  className := "TestClass"
  methodName := "testMethod"
  expected := "Works!"

/-- A command that runs a script in a shell. -/
def inShell (script : String) : CommandLine :=
  ["sh", "-c", script]

/-- The built-in languages under their usual names. -/
def languages : List (String × Backend) :=
  [("Cpp", .ephemeral ⟨"main.cpp", "one.hpp",
      inShell "g++ -std=c++17 -o main main.cpp && ./main", ["g++", "--version"]⟩),
   ("CSharp", .ephemeral ⟨"Program.cs", "one.cs",
      inShell "mcs -nologo -out:program.exe Program.cs one.cs && mono program.exe",
      ["mono", "--version"]⟩),
   ("Go", .ephemeral ⟨"main.go", "one.go", ["go", "run", "main.go", "one.go"],
      ["go", "version"]⟩),
   ("Java", .proxied
      ["java", "-cp", "target/classes:lib/*", "fastjavacompile.App", "\x7bport\x7d"]
      "FastCompile/Java/fastjavacompile" javaPort (some ["java", "-version"]) (some javaCheck)),
   ("JavaScript", .worker ["node", "jsonrepl.js"] "FastCompile/TypeScript"
      (some ["node", "--version"])),
   ("Perl", .ephemeral ⟨"main.pl", "one.pm", ["perl", "-I.", "main.pl"], ["perl", "-v"]⟩),
   ("PHP", .worker ["php", "jsonrepl.php"] "FastCompile/PHP" (some ["php", "--version"])),
   ("Python", .worker ["python2", "-u", "jsonrepl.py"] "FastCompile/Python"
      (some ["python2", "--version"])),
   ("Ruby", .worker ["ruby", "jsonrepl.rb"] "FastCompile/Ruby" (some ["ruby", "--version"])),
   ("Rust", .ephemeral ⟨"main.rs", "one.rs",
      inShell "rustc -A warnings -o main main.rs && ./main", ["rustc", "--version"]⟩),
   ("Swift", .ephemeral ⟨"main.swift", "one.swift",
      inShell "swiftc -suppress-warnings -o main main.swift one.swift && ./main",
      ["swift", "--version"]⟩),
   ("TypeScript", .worker ["node", "jsonrepl.js"] "FastCompile/TypeScript"
      (some ["node", "-e", "console.log(require('typescript').version)"]))]

/-- The registry of the built-in languages. -/
def registry : Registry :=
  ⟨Table.ofList (languages.map fun language =>
    (normalForm language.1, ⟨language.1, language.2⟩))⟩

/-- The tools that a built-in language needs, by normal form. -/
def toolTable : List (String × List String) :=
  [("cpp", ["g++"]), ("csharp", ["mcs", "mono"]), ("go", ["go"]), ("java", ["java"]),
   ("javascript", ["node"]), ("perl", ["perl"]), ("php", ["php"]), ("python", ["python2"]),
   ("ruby", ["ruby"]), ("rust", ["rustc"]), ("swift", ["swiftc"]),
   ("typescript", ["node"])]

/-- The tools that a language needs; nothing is known about other languages. -/
def requiredTools? (language : String) : Option (List String) :=
  Table.find? (normalForm language) toolTable

/-- The required tools that the given look-up does not find. -/
def missingTools (isInstalled : String → Bool) (required : List String) : List String :=
  required.filter fun tool => !isInstalled tool

/-- Accepts a toolchain, or names the tools that are missing. -/
def checkTools (isInstalled : String → Bool) (required : List String) : Except Failure Unit :=
  match missingTools isInstalled required with
  | [] => .ok ()
  | missing => .error (.commandNotFound (", ".intercalate missing))

end Polyglot.Builtin
