import ScriptHost.Files
import ScriptHost.HostError

/-!
# Bundles

A bundle is a folder of the scripts folder that holds an entry point. The bundle's name is the
folder's; the other files of the folder are modules that the entry point can import.
-/

namespace ScriptHost

/-- Where bundles lie: `<root>/<name>/<entryPoint>`. -/
structure BundleFolder where
  root : String
  entryPoint : String
deriving Repr, DecidableEq

/-- The entry point of a bundle with its source. -/
structure BundleEntry where
  name : String
  folder : String
  source : String
deriving Repr, DecidableEq

namespace BundleFolder

/-- The folder of a bundle. -/
def folder (b : BundleFolder) (name : String) : String := Path.join b.root name

/-- The path of a bundle's entry point. -/
def entryPath (b : BundleFolder) (name : String) : String := Path.join (b.folder name) b.entryPoint

/-- The names of all bundles, in order. -/
def list (b : BundleFolder) (files : FileTree) : Except HostError (List String) :=
  if files.isFolder b.root then
    .ok (((files.children b.root).filter fun name => files.isFile (b.entryPath name)).mergeSort
      (fun x y => decide (x ≤ y)))
  else .error (.bundle s!"scripts directory '{b.root}' does not exist")

/-- The entry point of a bundle. -/
def read (b : BundleFolder) (files : FileTree) (name : String) : Except HostError BundleEntry :=
  if files.isFile (b.entryPath name) then
    match files.readText (b.entryPath name) with
    | .ok source => .ok ⟨name, b.folder name, source⟩
    | .error e => .error (.files e.message)
  else
    .error (.bundle s!"bundle '{name}' has no {b.entryPoint} in {b.folder name}")

end BundleFolder

end ScriptHost
