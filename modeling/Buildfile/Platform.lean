import Buildfile.Text.Quoted

/-! # Platforms

A platform specifier is an operating system, an architecture and an optional variant, separated by
slashes. An operating system alone means the architecture of the host, and an architecture alone
means Linux. Letter case does not matter, and common other names of systems and architectures are
replaced by the usual ones.
-/

namespace Buildfile

structure Platform where
  os : String
  architecture : String
  variant : Option String := none
deriving DecidableEq, Repr

namespace Platform

def knownSystems : List String :=
  ["aix", "android", "darwin", "dragonfly", "freebsd", "illumos", "ios", "js", "linux",
    "netbsd", "openbsd", "plan9", "solaris", "windows"]

def knownArchitectures : List String :=
  ["386", "amd64", "arm", "arm64", "loong64", "mips", "mips64", "mips64le", "mipsle", "ppc64",
    "ppc64le", "riscv64", "s390x", "wasm"]

inductive Flaw where
  | emptyComponent
  | unknown
  | tooManyComponents
deriving DecidableEq, Repr

structure Fault where
  flaw : Flaw
  specifier : String
deriving DecidableEq, Repr

def Flaw.text : Flaw → String
  | .emptyComponent => "empty component"
  | .unknown => "unknown operating system or architecture"
  | .tooManyComponents => "too many components"

def Fault.message (f : Fault) : String :=
  s!"invalid platform {Text.quote f.specifier}: {f.flaw.text}"

/-- The architectures of hosts, by the names of their processors. -/
def hostArchitectures : List (String × String) :=
  [("x86_64", "amd64"), ("aarch64", "arm64"), ("x86", "386"), ("arm", "arm"), ("s390x", "s390x"),
    ("powerpc64", "ppc64le"), ("riscv64", "riscv64")]

def hostArchitecture (processor : String) : String :=
  (hostArchitectures.lookup processor).getD "amd64"

/-- The architecture of the host where no other host is given. -/
def defaultArchitecture : String := hostArchitecture "x86_64"

def canonicalSystem (os : String) : String := if os = "macos" then "darwin" else os

/-- The usual name of an architecture together with its variant. -/
def canonicalArchitecture (architecture : String) (variant : Option String) :
    String × Option String :=
  if architecture = "i386" then ("386", variant)
  else if architecture = "x86_64" ∨ architecture = "x86-64" then ("amd64", variant)
  else if architecture = "aarch64" then ("arm64", variant)
  else if architecture = "arm64" ∧ (variant = some "8" ∨ variant = some "v8") then ("arm64", none)
  else if architecture = "armhf" ∧ variant = none then ("arm", some "v7")
  else if architecture = "armel" ∧ variant = none then ("arm", some "v6")
  else if architecture = "arm" then
    ("arm", variant.map fun v => if v.toList.head? = some 'v' then v else "v" ++ v)
  else (architecture, variant)

def onSystem (os architecture : String) (variant : Option String) : Except Flaw Platform :=
  let (architecture, variant) := canonicalArchitecture architecture variant
  if architecture ∈ knownArchitectures then .ok { os, architecture, variant } else .error .unknown

def ofParts (os architecture : String) (variant : Option String) : Except Flaw Platform :=
  let os := canonicalSystem os
  if os ∈ knownSystems then onSystem os architecture variant else .error .unknown

/-- The components of a specifier in lower case. -/
def components (specifier : String) : List String :=
  ((specifier.toList.map Char.toLower).splitOn '/').map String.ofList

/-- The platform with these components, on a host of the given architecture. -/
def ofComponents (parts : List String) (host : String := defaultArchitecture) :
    Except Flaw Platform :=
  if "" ∈ parts then .error .emptyComponent
  else
    match parts with
    | [single] =>
      if single ∈ knownSystems then .ok { os := single, architecture := host }
      else onSystem "linux" single none
    | [os, architecture] => ofParts os architecture none
    | [os, architecture, variant] => ofParts os architecture (some variant)
    | _ => .error .tooManyComponents

def parse (specifier : String) (host : String := defaultArchitecture) : Except Fault Platform :=
  (ofComponents (components specifier) host).mapError (⟨·, specifier⟩)

def text (p : Platform) : String :=
  match p.variant with
  | some variant => s!"{p.os}/{p.architecture}/{variant}"
  | none => s!"{p.os}/{p.architecture}"

end Platform
end Buildfile
