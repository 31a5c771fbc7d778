import Psmgmt.Library.Tokens

/-!
# Key-value spaces

The spaces of `kvs.c` with the environments of `psenv.c` they are stored in, as
the provider and the forwarders of the clients have them.
-/

namespace Psmgmt.Pmi

open List

abbrev CStr : Type := List Char

def pmiUMaxline : Nat := 1024

def pmiKvsnameMax : Nat := 128

def pmiKeylenMax : Nat := 32

def pmiVallenMax : Nat := pmiUMaxline - pmiKvsnameMax - pmiKeylenMax - 48

/-- `KVS_t`; a space that was destroyed has no name. -/
structure Space where
  name : Option CStr
  env : List (CStr × CStr)
  deriving DecidableEq, Repr

def getKvsByName (kvs : List Space) (name : CStr) : Option Nat :=
  if name.length > pmiKvsnameMax then none
  else kvs.findIdx? (fun space => space.name = some name)

def setVar (name value : CStr) : List (CStr × CStr) → List (CStr × CStr)
  | [] => [(name, value)]
  | var :: rest =>
    if var.1 = name then (name, value) :: rest
    else var :: setVar name value rest

def envSet (env : List (CStr × CStr)) (name value : CStr) : Option (List (CStr × CStr)) :=
  if '=' ∈ name then none else some (setVar name value env)

/-- `kvs_set()`: the spaces afterwards unless it fails. -/
def kvsSet (kvs : List Space) (kvsname name value : CStr) : Option (List Space) :=
  if kvsname.length > pmiKvsnameMax ∨ name.length > pmiKeylenMax ∨
      value.length > pmiVallenMax then none
  else
    match getKvsByName kvs kvsname with
    | none => none
    | some index =>
      match kvs[index]? with
      | none => none
      | some space =>
        (envSet space.env name value).map (fun env => kvs.set index { space with env := env })

def Known (kvs : List Space) (kvsname : CStr) : Prop := ∃ space ∈ kvs, space.name = some kvsname

instance (kvs : List Space) (kvsname : CStr) : Decidable (Known kvs kvsname) :=
  inferInstanceAs (Decidable (∃ space ∈ kvs, _))

variable {kvs : List Space} {name : CStr}

theorem getKvsByName_none (short : name.length ≤ pmiKvsnameMax) :
    getKvsByName kvs name = none ↔ ¬ Known kvs name := by
  simp [getKvsByName, Nat.not_lt.mpr short, Known, findIdx?_eq_none_iff]

theorem getKvsByName_spec {index : Nat}
    (found : getKvsByName kvs name = some index) :
    ∃ space, kvs[index]? = some space ∧ space.name = some name := by
  rw [getKvsByName] at found
  split at found
  · exact absurd found (by simp)
  · obtain ⟨inside, named, _⟩ := findIdx?_eq_some_iff_getElem.mp found
    exact ⟨kvs[index], getElem?_eq_getElem inside, by simpa using named⟩

/-- `kvs_set()` fails for a name or a key or a value that is too long, for a
space that does not exist and for a key that holds an equals sign. -/
theorem kvsSet_isSome {kvs : List Space} {kvsname name value : CStr}
    (kvsnameShort : kvsname.length ≤ pmiKvsnameMax) (nameShort : name.length ≤ pmiKeylenMax)
    (valueShort : value.length ≤ pmiVallenMax) :
    (kvsSet kvs kvsname name value).isSome ↔ Known kvs kvsname ∧ '=' ∉ name := by
  rw [kvsSet, if_neg (by omega)]
  cases found : getKvsByName kvs kvsname with
  | none => simp [(getKvsByName_none kvsnameShort).mp found]
  | some index =>
    obtain ⟨space, stored, named⟩ := getKvsByName_spec found
    have known : Known kvs kvsname := ⟨space, mem_of_getElem? stored, named⟩
    by_cases sign : '=' ∈ name <;> simp [stored, known, envSet, sign]

theorem kvsSet_names {kvs' : List Space} {kvsname value : CStr}
    (stored : kvsSet kvs kvsname name value = some kvs') :
    kvs'.map Space.name = kvs.map Space.name := by
  rw [kvsSet] at stored
  split at stored
  · exact absurd stored (by simp)
  · split at stored
    · exact absurd stored (by simp)
    · next index found =>
        split at stored
        · exact absurd stored (by simp)
        · next space at_ =>
            obtain ⟨env, _, equality⟩ := Option.map_eq_some_iff.mp stored
            rw [← equality, map_set]
            apply ext_getElem? 
            intro position
            rw [getElem?_set]
            split
            · next same =>
                subst same
                split
                · next inside =>
                    rw [getElem?_map, at_]
                    rfl
                · next outside => rw [getElem?_eq_none (by omega)]
            · rfl

theorem known_iff_names {kvsname : CStr} :
    Known kvs kvsname ↔ some kvsname ∈ kvs.map Space.name := by
  simp [Known]

/-! ## Pairs -/

/-- The delimiters of the PMI protocol. -/
def isDelimiter (c : Char) : Bool := c = ' ' ∨ c = '\n'

/-- A key and a value as a client puts them: both are taken from tokens, and
the key has been stored. -/
structure Pair where
  key : CStr
  value : CStr
  key_short : key.length < pmiKeylenMax
  key_plain : Tokens.Plain isDelimiter key
  key_sign : '=' ∉ key
  value_plain : Tokens.Plain isDelimiter value

/-- `"%s=%s"`. -/
def Pair.text (pair : Pair) : CStr := pair.key ++ '=' :: pair.value

theorem Pair.text_plain (pair : Pair) : Tokens.Plain isDelimiter pair.text ∧ pair.text ≠ [] := by
  refine ⟨?_, by simp [Pair.text]⟩
  intro c member
  rcases mem_append.mp member with inKey | inValue
  · exact pair.key_plain c inKey
  · rcases mem_cons.mp inValue with sign | inValue
    · rw [sign]
      decide
    · exact pair.value_plain c inValue

end Psmgmt.Pmi
