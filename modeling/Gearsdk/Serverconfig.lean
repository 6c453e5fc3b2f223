import Gearsdk.Json
import Gearsdk.OrderedMap
import Gearsdk.Qaddress

/-! The configuration of a server: the values of ZooKeeper nodes under the keys
that a configuration file lists. -/
namespace Gearsdk
open Std

namespace Serverconfig

abbrev Configs := TreeMap Qstring Qstring

/-- A key of the configuration file: the group it is listed in and its name. -/
abbrev Key := Qstring × Qstring

def modZkKey (key : Key) : Qstring := key.1 ++ 47 :: key.2

def zkKey (zkRootFolder : Qstring) (key : Key) : Qstring := zkRootFolder ++ 47 :: modZkKey key

/-- The strings of an array, if it holds nothing else. -/
def stringArray : Json → Option (List Qstring)
  | .array elements => elements.mapM Json.getString
  | _ => none

def addKeys (configKeys : TreeMap Qstring (List Qstring)) (group : Qstring) (names : List Qstring) :
    TreeMap Qstring (List Qstring) :=
  names.foldl (fun configKeys name =>
    configKeys.insert group (configKeys.getD group [] ++ [name])) configKeys

/-- The keys that `iterate_and_load_keys` finds in a file, in the order in which
it loads them. -/
def keysOf : Json → Option (List Key)
  | .object members => do
      let configKeys ← members.foldlM (fun configKeys (member : Qstring × Json) => do
        let names ← stringArray member.2
        some (addKeys configKeys (Qstring.cString member.1) names)) ∅
      some (configKeys.toList.flatMap fun entry => entry.2.map fun name => (entry.1, name))
  | _ => none

/-- The key that a node has in the configuration: its path without the root, as
far as the root is the first component of the path. -/
def keyOf (path : Qstring) : Qstring :=
  match path.split [47] true with
  | _ :: root :: _ => path.replace (47 :: root ++ [47]) []
  | _ => path

def tryUpdateValue (configs : Configs) (path data : Qstring) : Option Configs :=
  if keyOf path ∈ configs then some (configs.insert (keyOf path) data) else none

/-- A node that is not in the configuration is passed over. -/
def zkValueChangeListener (configs : Configs) (path data : Qstring) : Configs :=
  (tryUpdateValue configs path data).getD configs

theorem lookup_listener (configs : Configs) (path data key : Qstring) :
    (zkValueChangeListener configs path data)[key]? =
      if key = keyOf path then configs[key]?.map fun _ => data else configs[key]? := by
  simp only [zkValueChangeListener, tryUpdateValue]
  by_cases loaded : keyOf path ∈ configs
  · simp only [loaded, if_true, Option.getD_some, OrderedMap.lookup_insert]
    by_cases same : key = keyOf path
    · obtain ⟨value, found⟩ := OrderedMap.mem_iff_lookup.mp loaded
      simp [same, found]
    · simp [same, Ne.symm same]
  · simp only [loaded, if_false, Option.getD_none]
    by_cases same : key = keyOf path
    · have absent := OrderedMap.not_mem_iff_lookup.mp loaded
      simp [same, absent]
    · simp [same]

end Serverconfig
end Gearsdk
