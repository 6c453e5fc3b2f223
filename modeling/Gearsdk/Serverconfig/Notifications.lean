import Gearsdk.Qstring.Replace
import Gearsdk.Serverconfig
import Gearsdk.Transition
import Gearsdk.Zookeeper

/-! A configuration beside the nodes that it was loaded from. The key of a node is made of the
names in the configuration file when the node is loaded, and of its path when it changes. -/
namespace Gearsdk.Serverconfig
open Qstring Zookeeper Transition

/-- A path that ZooKeeper accepts, besides that of the root of the tree. -/
structure NodePath (path : Qstring) : Prop where
  rooted : path.head? = some 47
  separated : ¬ [47, 47] <:+: path ++ [47]
  clean : Clean path

instance : DecidablePred NodePath := fun path =>
  decidable_of_iff (path.head? = some 47 ∧ find [47, 47] (path ++ [47]) = none ∧ Clean path) <| by
    rw [find_none_iff, or_iff_right (by simp)]
    exact ⟨fun ⟨rooted, separated, clean⟩ => ⟨rooted, separated, clean⟩,
      fun path => ⟨path.rooted, path.separated, path.clean⟩⟩

def getConfig (configs : Configs) (key defaultValue : Qstring) : Int × Qstring :=
  match configs[key]? with
  | none => (-1, cString defaultValue)
  | some value => (0, value)

def getString (configs : Configs) (key defaultValue : Qstring) : Qstring :=
  match configs[key]? with
  | none => cString defaultValue
  | some value => value

/-- The keys of a file are read one after the other. A node that does not exist is passed over;
`getData` is told how many were read before. -/
def loadKeys (zkRootFolder : Qstring) (getData : Nat → Qstring → Int × Qstring) :
    (keys : List Key) → (i : Nat) → Configs → Bool × Configs
  | [], _, configs => (true, configs)
  | key :: rest, i, configs =>
      let (result, zkRes) := getData i (zkKey (cString zkRootFolder) key)
      if result = znonode then loadKeys zkRootFolder getData rest (i + 1) configs
      else if result ≠ zok then (false, configs)
      else loadKeys zkRootFolder getData rest (i + 1) (configs.insert (modZkKey key) (cString zkRes))

def iterateAndLoadKeys (zkRootFolder : Qstring) (doc : Json)
    (getData : Nat → Qstring → Int × Qstring) (configs : Configs) : Bool × Configs :=
  match keysOf doc with
  | none => (false, configs)
  | some keys => loadKeys zkRootFolder getData keys 0 configs

/-- The path of the node that holds the value of a key. -/
def node (zkRootFolder key : Qstring) : Qstring := cString zkRootFolder ++ 47 :: key

/-- What is delivered while keys are loaded, and for which of them. -/
def loaded (zkRootFolder : Qstring) (getData : Nat → Qstring → Int × Qstring) :
    (keys : List Key) → (i : Nat) → List (Qstring × Qstring)
  | [], _ => []
  | key :: rest, i =>
      let (result, zkRes) := getData i (zkKey (cString zkRootFolder) key)
      if result = znonode then loaded zkRootFolder getData rest (i + 1)
      else if result ≠ zok then []
      else (modZkKey key, cString zkRes) :: loaded zkRootFolder getData rest (i + 1)

structure State where
  configs : Configs := ∅
  /-- What was delivered last for the node of a path that has been loaded. -/
  delivered : Qstring → Option Qstring := fun _ => none

inductive Event where
  | load (doc : Json) (getData : Nat → Qstring → Int × Qstring)
  | notify (path data : Qstring)

def keysIn (doc : Json) : List Key := (keysOf doc).getD []

/-- Values and notifications come from nodes. -/
def ready (zkRootFolder : Qstring) : Event → Bool
  | .load doc getData => (loaded zkRootFolder getData (keysIn doc) 0).all fun entry =>
    NodePath (node zkRootFolder entry.1)
  | .notify path _ => NodePath path

def deliver (delivered : Qstring → Option Qstring) (path data : Qstring) :
    Qstring → Option Qstring :=
  fun other => if other = path then some data else delivered other

def next (zkRootFolder : Qstring) (s : State) : Event → State
  | .load doc getData =>
      { configs := (iterateAndLoadKeys zkRootFolder doc getData s.configs).2
        delivered := (loaded zkRootFolder getData (keysIn doc) 0).foldl
          (fun delivered entry => deliver delivered (node zkRootFolder entry.1) entry.2) s.delivered }
  | .notify path data =>
      { configs := zkValueChangeListener s.configs path (cString data)
        delivered := if (s.delivered path).isSome then deliver s.delivered path (cString data)
          else s.delivered }

abbrev machine (zkRootFolder : Qstring) : Machine State Event Empty where
  init := {}
  enabled _ e := ready zkRootFolder e = true
  next s e := .ok (next zkRootFolder s e)

/-- A key reads what was delivered last for its own node. -/
def Current (zkRootFolder : Qstring) (s : State) : Prop :=
  ∀ key defaultValue,
    getString s.configs key defaultValue =
      (s.delivered (node zkRootFolder key)).getD (cString defaultValue)

/-- A notification is for a key when it is for its node: the root is one component, which does
not come again in the key, and no other path reads as the key when its first component is taken
out wherever it stands. -/
structure Faithful (zkRootFolder path key : Qstring) : Prop where
  own : path = node zkRootFolder key →
    ∃ root, cString zkRootFolder = 47 :: root ∧ 47 ∉ root ∧ ¬ 47 :: root ++ [47] <:+: key
  other : path ≠ node zkRootFolder key →
    ∀ root rest, 47 ∉ root → path = 47 :: root ++ 47 :: rest →
      replaceAll (47 :: root ++ [47]) [] rest ≠ key

/-- A notification is faithful to every loaded key that has another value. -/
def Heard (zkRootFolder : Qstring) (s : State) : Event → Prop
  | .load .. => True
  | .notify path data => ∀ key value, s.configs[key]? = some value → value ≠ cString data →
    Faithful zkRootFolder path key

/-! ### The key of a path -/

theorem NodePath.not_slashed (path : NodePath (a ++ 47 :: b)) : b.head? ≠ some 47 := by
  intro slashed
  obtain ⟨rest, rfl⟩ : ∃ rest, b = 47 :: rest := by
    cases b with
    | nil => contradiction
    | cons c rest => exact ⟨rest, by rw [Option.some.inj slashed]⟩
  exact path.separated ⟨a, rest ++ [47], by simp⟩

/-- The first component of a path is the one that is taken out. -/
theorem keyOf_cases (path : NodePath p) :
    (∃ root rest, 47 ∉ root ∧ p = 47 :: root ++ 47 :: rest ∧
    keyOf p = replaceAll (47 :: root ++ [47]) [] rest) ∨
      ∃ root, 47 ∉ root ∧ p = 47 :: root ∧ keyOf p = p := by
  obtain ⟨tail, rfl⟩ : ∃ tail, p = 47 :: tail := by
    have rooted := path.rooted
    cases p with
    | nil => contradiction
    | cons c tail => exact ⟨tail, by rw [Option.some.inj rooted]⟩
  by_cases deeper : 47 ∈ tail
  · obtain ⟨root, rest, rfl, absent⟩ := List.eq_append_cons_of_mem deeper
    refine .inl ⟨root, rest, absent, rfl, ?_⟩
    have parts : (47 :: (root ++ 47 :: rest) : Qstring).splitOn 47 = [] :: root ::
        rest.splitOn 47 := by
      rw [← List.nil_append (47 :: (root ++ 47 :: rest)),
        List.splitOn_append_cons_self_of_not_mem List.not_mem_nil,
        List.splitOn_append_cons_self_of_not_mem absent]
    have array : ∃ more, split (47 :: (root ++ 47 :: rest)) [47] true = [] :: root :: more := by
      obtain ⟨found, last, ends⟩ : ∃ found last, rest.splitOn 47 = found ++ [last] :=
        ⟨_, _, (List.dropLast_append_getLast (List.splitOn_ne_nil 47 rest)).symm⟩
      rw [split_single path.clean (parts.trans (by rw [ends]; rfl : _ = ([] :: root :: found) ++ [last]))]
      split
      · exact ⟨found ++ [last], rfl⟩
      · exact ⟨found, rfl⟩
    obtain ⟨more, array⟩ := array
    have found : find (47 :: root ++ [47]) (47 :: (root ++ 47 :: rest)) = some 0 :=
      find_some_iff.mpr ⟨by simp, ⟨rest, by simp⟩, fun j before => absurd before (Nat.not_lt_zero j)⟩
    rw [keyOf, array]
    dsimp only
    rw [replace_erase path.clean, replaceAll_found found]
    simp
  · refine .inr ⟨tail, deeper, rfl, ?_⟩
    have parts : (47 :: tail : Qstring).splitOn 47 = [[]] ++ [tail] := by
      rw [← List.nil_append (47 :: tail), List.splitOn_append_cons_self_of_not_mem List.not_mem_nil,
        List.splitOn_eq_singleton deeper]
      rfl
    have short : find (47 :: tail ++ [47]) (47 :: tail) = none := by
      rw [find_none_iff]
      refine .inr fun inside => ?_
      have length := inside.length_le
      rw [List.length_append, List.length_singleton] at length
      omega
    rw [keyOf, split_single path.clean parts]
    split
    · rename_i array
      split at array
      · obtain ⟨_, rfl, _⟩ : [] = _ ∧ tail = _ ∧ [] = _ := by simpa using array
        rw [replace_erase path.clean, replaceAll_absent short]
      · have length := congrArg List.length array
        simp at length
    · rfl

/-- Where something is taken out behind the first component, the last byte before it is kept
and is no slash. -/
theorem erased_last {root t : Qstring} (separated : ¬ [47, 47] <:+: t) (start : t.head? ≠ some 47)
    (occurs : 47 :: root ++ [47] <:+: t) :
    ∃ x w last u, t = x ++ (47 :: root ++ [47]) ++ u ∧ replaceAll (47 :: root ++ [47]) [] t = w ++
      [last] ++ u ∧ last ≠ 47 := by
  induction length : t.length using Nat.strongRecOn generalizing t with
  | ind n ih =>
    cases found : find (47 :: root ++ [47]) t with
    | none => exact absurd occurs ((find_none_iff.mp found).resolve_left (by simp))
    | some len =>
      obtain ⟨_, ⟨u, here⟩, _⟩ := find_some_iff.mp found
      have whole : t = t.take len ++ (47 :: root ++ [47]) ++ u := by
        rw [List.append_assoc, here, List.take_append_drop]
      have rest : t.drop (len + (47 :: root ++ [47]).length) = u := by
        rw [← List.drop_drop, ← here, List.drop_left]
      have erased : replaceAll (47 :: root ++ [47]) [] t = _ := replaceAll_found found
      rw [rest, List.nil_append] at erased
      by_cases again : 47 :: root ++ [47] <:+: u
      · have inner : u <:+: t :=
          ⟨t.take len ++ (47 :: root ++ [47]), [], by rw [List.append_nil, ← whole]⟩
        have unslashed : u.head? ≠ some 47 := by
          intro slashed
          obtain ⟨more, rfl⟩ : ∃ more, u = 47 :: more := by
            cases u with
            | nil => contradiction
            | cons c more => exact ⟨more, by rw [Option.some.inj slashed]⟩
          refine separated ⟨t.take len ++ 47 :: root, more, ?_⟩
          calc t.take len ++ 47 :: root ++ [47, 47] ++ more
              = t.take len ++ (47 :: root ++ [47]) ++ 47 :: more := by
                simp only [List.append_assoc, List.cons_append, List.nil_append]
            _ = t := whole.symm
        have shorter : u.length < n := by
          rw [← length, whole]
          simp
          omega
        obtain ⟨x, w, last, v, split, kept, other⟩ :=
          ih u.length shorter (fun inside => separated (inside.trans inner)) unslashed again rfl
        refine ⟨t.take len ++ (47 :: root ++ [47]) ++ x, t.take len ++ w, last, v, ?_, ?_, other⟩
        · rw [List.append_assoc _ x, List.append_assoc _ (x ++ _), ← split, ← whole]
        · rw [erased, kept]
          simp
      · have absent : find (47 :: root ++ [47]) u = none := find_none_iff.mpr (.inr again)
        rw [replaceAll_absent absent] at erased
        have filled : t.take len ≠ [] := by
          intro nothing
          rw [nothing] at whole
          exact start (by rw [whole]; rfl)
        refine ⟨t.take len, (t.take len).dropLast, (t.take len).getLast filled, u, whole, ?_, ?_⟩
        · rw [List.dropLast_append_getLast, erased]
        · intro slash
          refine separated ⟨(t.take len).dropLast, root ++ [47] ++ u, ?_⟩
          have front : (t.take len).dropLast ++ [47] = t.take len := by
            rw [← slash, List.dropLast_append_getLast]
          calc (t.take len).dropLast ++ [47, 47] ++ (root ++ [47] ++ u)
              = (t.take len).dropLast ++ [47] ++ (47 :: root ++ [47]) ++ u := by simp
            _ = t := by rw [front, ← whole]

/-- A node is found by its path when the root is its first component and does not come again. -/
theorem own_key (path : NodePath (node zkRootFolder key))
    (same : keyOf (node zkRootFolder key) = key) :
    ∃ root, cString zkRootFolder = 47 :: root ∧ 47 ∉ root ∧ ¬ 47 :: root ++ [47] <:+: key := by
  have long : (node zkRootFolder key).length = (cString zkRootFolder).length + key.length + 1 := by
    simp [node]
    omega
  rcases keyOf_cases path with ⟨root, rest, absent, split, erased⟩ | ⟨root, _, _, whole⟩
  · rw [same] at erased
    have separated : ¬ [47, 47] <:+: rest := by
      intro inside
      refine path.separated (inside.trans ?_)
      rw [split]
      exact ⟨47 :: root ++ [47], [47], by simp⟩
    rw [split] at path
    by_cases again : 47 :: root ++ [47] <:+: rest
    · obtain ⟨x, w, last, u, shape, kept, other⟩ := erased_last separated path.not_slashed again
      rw [← erased] at kept
      have ends : node zkRootFolder key = cString zkRootFolder ++ 47 :: w ++ [last] ++ u := by
        rw [node, kept]
        simp
      have sameEnds : node zkRootFolder key = 47 :: root ++ 47 :: x ++ 47 :: root ++ [47] ++ u := by
        rw [split, shape]
        simp
      have fronts := List.append_cancel_right (ends.symm.trans sameEnds)
      exact absurd (List.append_inj_right' fronts rfl) (by simpa using other)
    · rw [replaceAll_absent (find_none_iff.mpr (.inr again))] at erased
      subst erased
      exact ⟨root, List.append_cancel_right split, absent, again⟩
  · rw [same] at whole
    have lengths := congrArg List.length whole
    omega

/-- A slash ends a component. -/
theorem component_unique {a b : List UInt8} (left : 47 ∉ a) (right : 47 ∉ b)
    (same : a ++ 47 :: x = b ++ 47 :: y) : a = b ∧ x = y := by
  rcases List.append_eq_append_iff.mp same with ⟨more, rfl, rest⟩ | ⟨more, rfl, rest⟩
  all_goals
    cases more with
    | nil =>
      obtain ⟨_, rfl⟩ := List.cons.inj rest
      exact ⟨by rw [List.append_nil], rfl⟩
    | cons c more =>
      obtain ⟨rfl, _⟩ := List.cons.inj rest
      first
      | exact absurd List.mem_append_cons_self left
      | exact absurd List.mem_append_cons_self right

theorem keyOf_own (path : NodePath (node zkRootFolder key))
    (first : cString zkRootFolder = 47 :: root) (single : 47 ∉ root)
    (once : ¬ 47 :: root ++ [47] <:+: key) : keyOf (node zkRootFolder key) = key := by
  have shape : node zkRootFolder key = 47 :: root ++ 47 :: key := by rw [node, first]
  rcases keyOf_cases path with ⟨other, rest, absent, split, erased⟩ | ⟨other, absent, split, _⟩
  · obtain ⟨rfl, rfl⟩ := component_unique single absent (List.cons.inj (shape.symm.trans split)).2
    rw [erased, replaceAll_absent (find_none_iff.mpr (.inr once))]
  · obtain rfl := (List.cons.inj (shape.symm.trans split)).2
    exact absurd List.mem_append_cons_self absent

/-- A notification updates a loaded key just when it is for the key. -/
theorem updates_iff (valid : NodePath path) (loaded : NodePath (node zkRootFolder key)) :
    (path = node zkRootFolder key ↔ keyOf path = key) ↔ Faithful zkRootFolder path key := by
  constructor
  · intro same
    refine ⟨?_, fun different root rest absent split erased => ?_⟩
    · rintro rfl
      exact own_key loaded (same.mp rfl)
    · refine different (same.mpr ?_)
      rcases keyOf_cases valid with
        ⟨other, more, unslashed, shape, taken⟩ | ⟨other, unslashed, shape, _⟩
      · obtain ⟨rfl, rfl⟩ :=
          component_unique absent unslashed (List.cons.inj (split.symm.trans shape)).2
        exact taken.trans erased
      · obtain rfl := (List.cons.inj (split.symm.trans shape)).2
        exact absurd List.mem_append_cons_self unslashed
  · intro faithful
    constructor
    · rintro rfl
      obtain ⟨root, first, single, once⟩ := faithful.own rfl
      exact keyOf_own loaded first single once
    · intro same
      by_contra different
      rcases keyOf_cases valid with ⟨root, rest, absent, split, erased⟩ | ⟨root, _, split, whole⟩
      · exact faithful.other different root rest absent split (erased.symm.trans same)
      · rw [whole] at same
        subst same
        exact loaded.not_slashed (by rw [split]; rfl)

/-! ### Runs -/

theorem exists_other (data : Qstring) : ∃ text, cString text ≠ data := by
  cases data with
  | nil => exact ⟨[1], by decide⟩
  | cons c rest => exact ⟨[], List.cons_ne_nil c rest ∘ Eq.symm⟩

theorem current_iff (zkRootFolder : Qstring) (s : State) :
    Current zkRootFolder s ↔ ∀ key, s.configs[key]? = s.delivered (node zkRootFolder key) := by
  constructor
  · intro current key
    have read := current key
    cases held : s.configs[key]? with
    | none =>
      cases last : s.delivered (node zkRootFolder key) with
      | none => rfl
      | some data =>
        obtain ⟨text, other⟩ := exists_other data
        have same := read text
        simp only [getString, held, last, Option.getD_some] at same
        exact absurd same other
    | some value =>
      cases last : s.delivered (node zkRootFolder key) with
      | none =>
        obtain ⟨text, other⟩ := exists_other value
        have same := read text
        simp only [getString, held, last, Option.getD_none] at same
        exact absurd same.symm other
      | some data =>
        have same := read []
        simpa [getString, held, last] using same
  · intro same key defaultValue
    rw [getString, same key]
    cases s.delivered (node zkRootFolder key) <;> rfl

theorem node_injective (same : node zkRootFolder key = node zkRootFolder key') : key = key' :=
  (List.cons.inj (List.append_cancel_left same)).2

theorem zkKey_eq_node (zkRootFolder : Qstring) (key : Key) :
    zkKey (cString zkRootFolder) key = node zkRootFolder (modZkKey key) := rfl

/-- A load stores what is delivered for its keys. -/
theorem loadKeys_eq (zkRootFolder : Qstring) (getData : Nat → Qstring → Int × Qstring)
    (keys : List Key) (i : Nat) (configs : Configs) :
    (loadKeys zkRootFolder getData keys i configs).2 =
      (loaded zkRootFolder getData keys i).foldl (fun configs entry =>
        configs.insert entry.1 entry.2) configs := by
  induction keys generalizing i configs with
  | nil => rfl
  | cons key rest ih =>
    rw [loadKeys, loaded]
    dsimp only
    split
    · exact ih (i + 1) configs
    · split
      · rfl
      · exact ih (i + 1) _

theorem iterateAndLoadKeys_eq (zkRootFolder : Qstring) (doc : Json)
    (getData : Nat → Qstring → Int × Qstring) (configs : Configs) :
    (iterateAndLoadKeys zkRootFolder doc getData configs).2 =
      (loaded zkRootFolder getData (keysIn doc) 0).foldl (fun configs entry =>
        configs.insert entry.1 entry.2) configs := by
  rw [iterateAndLoadKeys, keysIn]
  cases keysOf doc with
  | none => rfl
  | some keys => exact loadKeys_eq ..

theorem load_same (entries : List (Qstring × Qstring)) {configs : Configs}
    {delivered : Qstring → Option Qstring}
    (same : ∀ key, configs[key]? = delivered (node zkRootFolder key)) (key : Qstring) :
    (entries.foldl (fun configs entry => configs.insert entry.1 entry.2) configs)[key]? =
      entries.foldl (fun delivered entry =>
        deliver delivered (node zkRootFolder entry.1) entry.2) delivered
        (node zkRootFolder key) := by
  induction entries generalizing configs delivered with
  | nil => exact same key
  | cons entry rest ih =>
    refine ih fun other => ?_
    rw [OrderedMap.lookup_insert]
    simp only [deliver]
    by_cases here : entry.1 = other
    · rw [if_pos here, if_pos (by rw [here])]
    · rw [if_neg here, if_neg fun eq => here (node_injective eq).symm, same other]

theorem mem_load {entries : List (Qstring × Qstring)} {configs : Configs}
    (member : key ∈ entries.foldl (fun configs entry => configs.insert entry.1 entry.2) configs) :
    key ∈ configs ∨ ∃ entry ∈ entries, entry.1 = key := by
  induction entries generalizing configs with
  | nil => exact .inl member
  | cons entry rest ih =>
    rcases ih member with before | ⟨found, inside, same⟩
    · rcases (OrderedMap.mem_insert_iff configs entry.1 key entry.2).mp before with same | before
      · exact .inr ⟨entry, List.mem_cons_self, same⟩
      · exact .inl before
    · exact .inr ⟨found, List.mem_cons_of_mem _ inside, same⟩

/-- The nodes of the loaded keys are paths. -/
def Loaded (zkRootFolder : Qstring) (s : State) : Prop :=
  ∀ key, key ∈ s.configs → NodePath (node zkRootFolder key)

theorem loaded_of_run (run : (machine zkRootFolder).Run es s) : Loaded zkRootFolder s := by
  refine run.invariant (P := Loaded zkRootFolder) ?_ ?_
  · intro s e t loadedBefore step key member
    cases Except.ok.inj step.2
    cases e with
    | load doc getData =>
      have fromNodes := step.1
      simp only [ready, List.all_eq_true, decide_eq_true_eq] at fromNodes
      simp only [next, iterateAndLoadKeys_eq] at member
      rcases mem_load member with before | ⟨entry, inside, rfl⟩
      · exact loadedBefore key before
      · exact fromNodes entry inside
    | notify path data =>
      refine loadedBefore key ?_
      obtain ⟨value, found⟩ := OrderedMap.mem_iff_lookup.mp member
      simp only [next, lookup_listener] at found
      split at found
      · obtain ⟨before, held, _⟩ := Option.map_eq_some_iff.mp found
        exact OrderedMap.mem_of_lookup held
      · exact OrderedMap.mem_of_lookup found
  · intro key member
    exact absurd member (by simp)

theorem current_notify_iff (loadedNodes : Loaded zkRootFolder s) (current : Current zkRootFolder s)
    (valid : NodePath path) (data : Qstring) :
    Current zkRootFolder (next zkRootFolder s (.notify path data)) ↔
      Heard zkRootFolder s (.notify path data) := by
  rw [current_iff] at current
  rw [current_iff]
  simp only [next, lookup_listener, Heard]
  refine forall_congr' fun key => ?_
  have updated : (if (s.delivered path).isSome then deliver s.delivered path (cString data)
    else s.delivered) (node zkRootFolder key) =
      if path = node zkRootFolder key then (s.configs[key]?).map fun _ => cString data
        else s.configs[key]? := by
    rw [current key]
    by_cases here : path = node zkRootFolder key
    · rw [if_pos here, here]
      cases last : s.delivered (node zkRootFolder key) <;> simp [deliver, last]
    · rw [if_neg here]
      split
      · rw [deliver, if_neg fun eq => here eq.symm]
      · rfl
  rw [updated]
  cases held : s.configs[key]? with
  | none => simp
  | some value =>
    have faithful := updates_iff valid (loadedNodes key (OrderedMap.mem_of_lookup held))
    simp only [Option.map_some, Option.some.injEq, forall_eq']
    rw [← faithful]
    by_cases own : key = keyOf path
    · rw [if_pos own]
      by_cases here : path = node zkRootFolder key
      · rw [if_pos here]
        exact iff_of_true rfl fun _ => iff_of_true here own.symm
      · rw [if_neg here, Option.some.injEq]
        constructor
        · intro same different
          exact absurd same.symm different
        · intro faithful
          by_contra different
          exact here ((faithful (Ne.symm different)).mpr own.symm)
    · rw [if_neg own]
      by_cases here : path = node zkRootFolder key
      · rw [if_pos here, Option.some.injEq]
        constructor
        · intro same different
          exact absurd same different
        · intro faithful
          by_contra different
          exact own ((faithful different).mp here).symm
      · rw [if_neg here]
        exact iff_of_true rfl fun _ => iff_of_false here (own ∘ Eq.symm)

/-- In a run every key always reads what was delivered last for its node just when each
notification is faithful to the loaded keys that have another value. -/
theorem current_iff_heard (run : (machine zkRootFolder).Run es s) :
    (machine zkRootFolder).Always (Current zkRootFolder) es ↔
      (machine zkRootFolder).Meets (Heard zkRootFolder) es := by
  refine Machine.always_iff_meets ?_ ?_ run
  · rw [current_iff]
    exact fun key => OrderedMap.lookup_empty key
  · intro fs s e t before current step
    cases Except.ok.inj step.2
    cases e with
    | load doc getData =>
      refine iff_of_true ?_ trivial
      rw [current_iff] at current ⊢
      simp only [next, iterateAndLoadKeys_eq]
      exact load_same _ current
    | notify path data =>
      exact current_notify_iff (loaded_of_run before) current (by simpa [ready] using step.1) data

def heardTest (zkRootFolder : Qstring) (s : State) : Event → Bool
  | .load .. => true
  | .notify path data => NodePath path && s.configs.toList.all fun entry =>
      entry.2 = cString data || NodePath (node zkRootFolder entry.1) &&
        ((path = node zkRootFolder entry.1 : Bool) == (keyOf path = entry.1 : Bool))

theorem heard_of_test (zkRootFolder : Qstring) (s : State) (e : Event)
    (passed : heardTest zkRootFolder s e = true) :
    Heard zkRootFolder s e := by
  cases e with
  | load => trivial
  | notify path data =>
    simp only [heardTest, Bool.and_eq_true, decide_eq_true_eq, List.all_eq_true, Bool.or_eq_true,
      beq_iff_eq, decide_eq_decide] at passed
    obtain ⟨valid, tests⟩ := passed
    intro key value held different
    rcases tests (key, value) (Std.TreeMap.mem_toList_iff_getElem?_eq_some.mpr held) with
      same | ⟨loaded, same⟩
    · exact absurd same different
    · exact (updates_iff valid loaded).mp same

/-- The file that lists one key of one group, loaded while the node has a value. -/
def loadName (value : String) : Event :=
  .load (.object [(literal "game", .array [.string (literal "name")])]) fun _ _ =>
    (zok, literal value)

/-- The node changes, and then one that was not loaded. -/
def nameChanges : List Event :=
  [loadName "uno", .notify (literal "/qh3server/game/name") (literal "duo"),
    .notify (literal "/qh3server/game/mode") (literal "off")]

theorem name_heard :
    ∃ s, (machine (literal "/qh3server")).Run nameChanges s ∧
      getString s.configs (literal "game/name") [] = literal "duo" ∧
      (machine (literal "/qh3server")).Always (Current (literal "/qh3server")) nameChanges := by
  have shown : ((machine (literal "/qh3server")).exec {} nameChanges).map
      (fun s => getString s.configs (literal "game/name") []) = some (literal "duo") := by
        decide +kernel
  have passed : (machine (literal "/qh3server")).checks
      (heardTest (literal "/qh3server")) {} nameChanges = true := by
    decide +kernel
  obtain ⟨s, run, read⟩ := Machine.exec_observe shown
  have heard : (machine (literal "/qh3server")).Meets (Heard (literal "/qh3server")) nameChanges :=
    fun _ _ _ inside path =>
    Machine.meets_of_checks (heard_of_test _) passed inside path
  exact ⟨s, run, read, (current_iff_heard run).mpr heard⟩

/-- Under a root of two components no change of a node reaches the configuration. -/
theorem deep_root_stale :
    ∃ s, (machine (literal "/eu/qh3server")).Run
        [loadName "uno", .notify (literal "/eu/qh3server/game/name") (literal "duo")] s ∧
      getString s.configs (literal "game/name") [] = literal "uno" ∧
      s.delivered (literal "/eu/qh3server/game/name") = some (literal "duo") ∧
        ¬ Current (literal "/eu/qh3server") s := by
  have shown : ((machine (literal "/eu/qh3server")).exec {}
      [loadName "uno", .notify (literal "/eu/qh3server/game/name") (literal "duo")]).map
      (fun s => (getString s.configs (literal "game/name") [],
        s.delivered (literal "/eu/qh3server/game/name"))) =
      some (literal "uno", some (literal "duo")) := by decide +kernel
  obtain ⟨s, run, same⟩ := Machine.exec_observe shown
  obtain ⟨read, last⟩ := Prod.mk.inj same
  refine ⟨s, run, read, last, fun current => ?_⟩
  have wanted := current (literal "game/name") []
  have path : node (literal "/eu/qh3server") (literal "game/name") =
    literal "/eu/qh3server/game/name" := by decide +kernel
  rw [read, path, last] at wanted
  exact absurd wanted (by decide +kernel)

end Gearsdk.Serverconfig
