import Cosmosh.Library.ResumableWrites
import Cosmosh.RemoteBootstrap.ProfileHook

/-! # Installing the bootstrap runtime

The installer writes its own binary, the helper, the profiles of the shell and last the version file, each at once or
not at all.
-/

namespace RemoteBootstrap

open Library Library.Utf8

/-- `[A-Za-z0-9._+-]+` -/
def versionPattern (version : Text) : Bool := version ≠ [] && version.all fun c => c.isAlphanum || c ∈ ['.', '_', '+', '-']

inductive ProfileFile
  | bashrc
  | bash_profile
  | bash_login
  | profile
  | zshrc
  | cosmosh_fish
  deriving DecidableEq

inductive InstalledFile
  | binary
  | helper
  | profile (file : ProfileFile)
  | version
  deriving DecidableEq

abbrev InstalledFiles := Files InstalledFile (List Byte)

/-- The running binary, what it generates, and the options it accepts. -/
structure Installer where
  executable : List Byte
  buildHelper : TargetShell → Text → List Byte
  isPrint : Char → Bool
  environment : Environment
  shell : TargetShell
  version : Text
  paths : Paths
  version_valid : versionPattern version = true
  paths_resolved : resolvePaths environment shell = some paths

namespace Installer

variable (i : Installer)

def hook : List Byte := encode (profileBlock i.isPrint i.shell i.paths)

def resolveProfilePaths (files : InstalledFiles) : List ProfileFile :=
  match i.shell with
  | .fish => [.cosmosh_fish]
  | .zsh => [.zshrc]
  | .bash =>
    [.bashrc, if (files (.profile .bash_profile)).isSome then .bash_profile
      else if (files (.profile .bash_login)).isSome then .bash_login else .profile]
  | .sh => [.profile]
  | .ash => [.profile]

def readVersion (content : List Byte) : Text := trimSpace (decode content)

def helperMatches (version : Text) (files : InstalledFiles) : Bool := version ≠ [] && files .helper = some (i.buildHelper i.shell version)

def hasCurrentHook (content : Option (List Byte)) : Bool :=
  match content with
  | none => false
  | some content =>
    if i.shell = .fish then i.hook <:+: content else markerStart <:+: content && i.hook <:+: content && markerEnd <:+: content

def profileHasCurrentHook (files : InstalledFiles) : Bool :=
  (i.resolveProfilePaths files).all fun file => i.hasCurrentHook (files (.profile file))

def hasVersion (content : Option (List Byte)) : Bool := (content.map readVersion) = some i.version

def isCurrentInstallation (files : InstalledFiles) : Bool :=
  i.hasVersion (files .version) && files .binary = some i.executable && i.helperMatches i.version files && i.profileHasCurrentHook files

structure InstallationStatus where
  installed : Bool
  version : Text
  helperCurrent : Bool
  profileCurrent : Bool
  deriving DecidableEq

def status (files : InstalledFiles) : InstallationStatus :=
  let version := ((files .version).map readVersion).getD []
  let helperCurrent := version ≠ [] && i.helperMatches version files
  let profileCurrent := version ≠ [] && i.profileHasCurrentHook files
  {
    installed := (files .binary).isSome && version ≠ [] && helperCurrent && profileCurrent
    version := version
    helperCurrent := helperCurrent
    profileCurrent := profileCurrent
  }

def nextContent : InstalledFile → Option (List Byte) → List Byte
  | .binary, _ => i.executable
  | .helper, _ => i.buildHelper i.shell i.version
  | .profile _, existing => if i.shell = .fish then i.hook else replaceMarkedBlock (existing.getD []) i.hook
  | .version, _ => encode (i.version ++ ['\n'])

def writeFile (files : InstalledFiles) (file : InstalledFile) : InstalledFiles :=
  Function.update files file (some (i.nextContent file (files file)))

def writeOrder (files : InstalledFiles) : List InstalledFile :=
  [.binary, .helper] ++ ((i.resolveProfilePaths files).map InstalledFile.profile ++ [.version])

inductive Outcome
  | skipped
  | installed
  | failed
  deriving DecidableEq

def run (limit : Nat) (files : InstalledFiles) : InstalledFiles × Outcome :=
  if i.isCurrentInstallation files = true then (files, .skipped)
  else
    (((i.writeOrder files).take limit).foldl i.writeFile files, if (i.writeOrder files).length ≤ limit then .installed else .failed)

def final (files : InstalledFiles) : InstalledFiles := (i.run (i.writeOrder files).length files).1

def HasOneBlock (content : Option (List Byte)) : Prop :=
  if i.shell = .fish then ∃ front back, cut i.hook (content.getD []) = some (front, back) ∧ ¬ i.hook <:+: back
  else bootstrapMarkers.blocks (content.getD []) = [0x0a :: i.hook]

structure Converges (files : InstalledFiles) : Prop where
  reports : ∀ limit, (i.run limit files).2 ≠ .failed →
    (i.status (i.run limit files).1).installed = true ∧ (i.status (i.run limit files).1).version = i.version ∧
      ∀ again, i.run again (i.run limit files).1 = ((i.run limit files).1, .skipped)
  resumes : ∀ limit, i.final (i.run limit files).1 = i.final files
  oneBlock : ∀ file ∈ i.resolveProfilePaths files, i.HasOneBlock (i.final files (.profile file))

def InOrder (content : Option (List Byte)) : Prop := i.shell = .fish ∨ bootstrapMarkers.Ordered (content.getD [])

def HookPlaced (content : Option (List Byte)) : Prop :=
  ∃ existing, content = some existing ∧ if i.shell = .fish then existing = i.hook else bootstrapMarkers.Placed existing i.hook

def OnlyBlock (content : Option (List Byte)) : Prop :=
  i.shell = .fish ∨ bootstrapMarkers.Free i.hook ∧ bootstrapMarkers.otherBlocks (content.getD []) = []

def CanResume (files : InstalledFiles) : Prop :=
  if i.hasVersion (files .version) = true then
    files .version = some (encode (i.version ++ ['\n'])) ∧ ∀ done rest, i.resolveProfilePaths files = done ++ rest →
      if ∀ file ∈ rest, i.hasCurrentHook (files (.profile file)) = true then ∀ file ∈ rest, i.HookPlaced (files (.profile file))
      else ∀ file ∈ done, i.InOrder (files (.profile file))
  else ∀ file ∈ i.resolveProfilePaths files, i.InOrder (files (.profile file))

def CanConverge (files : InstalledFiles) : Prop :=
  if i.isCurrentInstallation files = true then ∀ file ∈ i.resolveProfilePaths files, i.HasOneBlock (files (.profile file))
  else (∀ file ∈ i.resolveProfilePaths files, i.OnlyBlock (files (.profile file))) ∧ i.CanResume files

end Installer

end RemoteBootstrap
