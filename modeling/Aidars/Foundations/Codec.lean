import Aidars.Foundations.Collections
import Aidars.Foundations.Json
import Mathlib.Data.Finset.Sort
import Mathlib.Data.String.Basic

/-!
# Codecs

A `Codec α` writes values of `α` as JSON and reads them back. JSON has no infinities and no `nan`:
a float that is not finite is written as `null`, so it comes back as nothing where a float is
required, as an absent value where one is optional, and as `null` in a free-form tree
(`Json.encodeAny`).

`c.Stable a` says that `a` comes back as it was. Texts, numbers and sets of texts are always stable,
and options, lists and dictionaries are when their members are.
-/

namespace Aidars

/-- A float that JSON can write. -/
def PyFloat.isFinite : PyFloat → Bool
  | .finite _ => true
  | _ => false

namespace Json

mutual

/-- All floats of the tree are finite. -/
def isFinite : Json → Bool
  | .float x => x.isFinite
  | .arr items => isFiniteItems items
  | .obj entries => isFiniteEntries entries
  | .null | .bool _ | .int _ | .str _ => true

/-- All floats of the items are finite. -/
def isFiniteItems : List Json → Bool
  | [] => true
  | j :: l => isFinite j && isFiniteItems l

/-- All floats of the entries are finite. -/
def isFiniteEntries : List (String × Json) → Bool
  | [] => true
  | (_, j) :: l => isFinite j && isFiniteEntries l

end

mutual

/-- A free-form tree as it is written. -/
def encodeAny : Json → Json
  | .float (.finite q) => .float (.finite q)
  | .float _ => .null
  | .arr items => .arr (encodeAnyItems items)
  | .obj entries => .obj (encodeAnyEntries entries)
  | .null => .null
  | .bool b => .bool b
  | .int n => .int n
  | .str s => .str s

/-- The items of a free-form list as they are written. -/
def encodeAnyItems : List Json → List Json
  | [] => []
  | j :: l => encodeAny j :: encodeAnyItems l

/-- The entries of a free-form object as they are written. -/
def encodeAnyEntries : List (String × Json) → List (String × Json)
  | [] => []
  | (k, j) :: l => (k, encodeAny j) :: encodeAnyEntries l

end

mutual

theorem encodeAny_eq_iff (j : Json) : j.encodeAny = j ↔ j.isFinite = true := by
  cases j with
  | null | bool | int | str => simp [encodeAny, isFinite]
  | float x => cases x <;> simp [encodeAny, isFinite, PyFloat.isFinite]
  | arr items =>
    simp only [encodeAny, isFinite, Json.arr.injEq]
    exact encodeAnyItems_eq_iff items
  | obj entries =>
    simp only [encodeAny, isFinite, Json.obj.injEq]
    exact encodeAnyEntries_eq_iff entries

theorem encodeAnyItems_eq_iff (l : List Json) :
    encodeAnyItems l = l ↔ isFiniteItems l = true := by
  cases l with
  | nil => simp [encodeAnyItems, isFiniteItems]
  | cons j l =>
    simp only [encodeAnyItems, isFiniteItems, List.cons.injEq, Bool.and_eq_true]
    rw [encodeAny_eq_iff j, encodeAnyItems_eq_iff l]

theorem encodeAnyEntries_eq_iff (l : List (String × Json)) :
    encodeAnyEntries l = l ↔ isFiniteEntries l = true := by
  cases l with
  | nil => simp [encodeAnyEntries, isFiniteEntries]
  | cons e l =>
    obtain ⟨k, j⟩ := e
    simp only [encodeAnyEntries, isFiniteEntries, List.cons.injEq, Prod.mk.injEq, true_and,
      Bool.and_eq_true]
    rw [encodeAny_eq_iff j, encodeAnyEntries_eq_iff l]

end

mutual

theorem encodeAny_encodeAny (j : Json) : j.encodeAny.encodeAny = j.encodeAny := by
  cases j with
  | null | bool | int | str => rfl
  | float x => cases x <;> rfl
  | arr items => rw [encodeAny, encodeAny, encodeAnyItems_encodeAnyItems items]
  | obj entries => rw [encodeAny, encodeAny, encodeAnyEntries_encodeAnyEntries entries]

theorem encodeAnyItems_encodeAnyItems (l : List Json) :
    encodeAnyItems (encodeAnyItems l) = encodeAnyItems l := by
  cases l with
  | nil => rfl
  | cons j l =>
    rw [encodeAnyItems, encodeAnyItems, encodeAny_encodeAny j, encodeAnyItems_encodeAnyItems l]

theorem encodeAnyEntries_encodeAnyEntries (l : List (String × Json)) :
    encodeAnyEntries (encodeAnyEntries l) = encodeAnyEntries l := by
  cases l with
  | nil => rfl
  | cons e l =>
    obtain ⟨k, j⟩ := e
    rw [encodeAnyEntries, encodeAnyEntries, encodeAny_encodeAny j,
      encodeAnyEntries_encodeAnyEntries l]

end

mutual

/-- What is written has no NaN. -/
theorem normal_encodeAny (a b : Bool) (j : Json) :
    j.encodeAny.normal a = j.encodeAny.normal b := by
  cases j with
  | null | bool | int | str => rfl
  | float x => cases x <;> rfl
  | arr items => rw [encodeAny, normal, normal, normalItems_encodeAnyItems a b items]
  | obj entries => rw [encodeAny, normal, normal, normalEntries_encodeAnyEntries a b entries]

theorem normalItems_encodeAnyItems (a b : Bool) (l : List Json) :
    normalItems a (encodeAnyItems l) = normalItems b (encodeAnyItems l) := by
  cases l with
  | nil => rfl
  | cons j l =>
    rw [encodeAnyItems, normalItems, normalItems, normal_encodeAny a b j,
      normalItems_encodeAnyItems a b l]

theorem normalEntries_encodeAnyEntries (a b : Bool) (l : List (String × Json)) :
    normalEntries a (encodeAnyEntries l) = normalEntries b (encodeAnyEntries l) := by
  cases l with
  | nil => rfl
  | cons e l =>
    obtain ⟨k, j⟩ := e
    rw [encodeAnyEntries, normalEntries, normalEntries, normal_encodeAny a b j,
      normalEntries_encodeAnyEntries a b l]

end

/-- Without a NaN there is only one equality. -/
theorem normal_of_isFinite {j : Json} (h : j.isFinite = true) (a b : Bool) :
    j.normal a = j.normal b := by
  rw [← (encodeAny_eq_iff j).2 h]
  exact normal_encodeAny a b j

theorem isFiniteEntries_str (l : List (String × String)) :
    isFiniteEntries (l.map fun e => (e.1, .str e.2)) = true := by
  induction l with
  | nil => rfl
  | cons e l ih => exact ih

/-- The member of an object. -/
def get? (j : Json) (name : String) : Option Json :=
  match j with
  | .obj entries => entries.lookup name
  | _ => none

end Json

/-- A way to write values as JSON and to read them back. -/
structure Codec (α : Type*) where
  encode : α → Json
  decode : Json → Option α

namespace Codec

variable {α β : Type*}

/-- Write a value and read it back. -/
def reload (c : Codec α) (a : α) : Option α := c.decode (c.encode a)

/-- The value comes back as it was. -/
def Stable (c : Codec α) (a : α) : Prop := c.reload a = some a

/-- Read a member of an object. -/
def field (c : Codec α) (j : Json) (name : String) : Option α := (j.get? name).bind c.decode

theorem field_cons (c : Codec α) (k name : String) (j : Json) (l : List (String × Json)) :
    c.field (.obj ((k, j) :: l)) name =
      if name = k then c.decode j else c.field (.obj l) name := by
  unfold field Json.get?
  simp only [Dict.lookup_cons_ite]
  split_ifs <;> rfl

/-! ## Scalars -/

def str : Codec String where
  encode := .str
  decode
    | .str s => some s
    | _ => none

def bool : Codec Bool where
  encode := .bool
  decode
    | .bool b => some b
    | _ => none

def int : Codec ℤ where
  encode := .int
  decode
    | .int n => some n
    | _ => none

def nat : Codec ℕ where
  encode n := .int n
  decode
    | .int n => if 0 ≤ n then some n.toNat else none
    | _ => none

/-- Floats; an integer is read as a float. -/
def float : Codec PyFloat where
  encode
    | .finite q => .float (.finite q)
    | _ => .null
  decode
    | .float x => some x
    | .int n => some (.finite n)
    | _ => none

/-- Free-form trees. -/
def any : Codec Json where
  encode := Json.encodeAny
  decode := some

/-- An enumeration, written by the values of its members. -/
def enum (members : List α) (value : α → String) : Codec α where
  encode a := .str (value a)
  decode
    | .str s => members.find? (value · = s)
    | _ => none

/-! ## Containers -/

/-- An optional value, absent when it is `null`. -/
def option (c : Codec α) : Codec (Option α) where
  encode
    | none => .null
    | some a => c.encode a
  decode
    | .null => some none
    | j => (c.decode j).map some

/-- Read the items of a list. -/
def decodeItems (c : Codec α) : List Json → Option (List α)
  | [] => some []
  | j :: l => (c.decode j).bind fun a => (decodeItems c l).map (a :: ·)

def list (c : Codec α) : Codec (List α) where
  encode l := .arr (l.map c.encode)
  decode
    | .arr items => decodeItems c items
    | _ => none

instance instIsTransStringLe : IsTrans String (· ≤ ·) := ⟨fun _ _ _ => le_trans⟩

instance instAntisymmStringLe : @Std.Antisymm String (· ≤ ·) := ⟨fun _ _ => le_antisymm⟩

/-- A set of texts, written in some order. -/
def set : Codec (Finset String) where
  encode s := (list str).encode s.sort
  decode j := ((list str).decode j).map List.toFinset

/-- Read the entries of an object; a later entry replaces an earlier one of the same key. -/
def decodeEntries (c : Codec α) (d : Dict String α) : List (String × Json) → Option (Dict String α)
  | [] => some d
  | (k, j) :: l => (c.decode j).bind fun a => decodeEntries c (d.set k a) l

def dict (c : Codec α) : Codec (Dict String α) where
  encode d := .obj (d.entries.map fun e => (e.1, c.encode e.2))
  decode
    | .obj entries => decodeEntries c ∅ entries
    | _ => none

/-! ## Reading back -/

theorem ite_some_bind {c : Prop} [Decidable c] (a : α) (f : α → Option β) :
    (if c then some a else none).bind f = if c then f a else none := by
  split_ifs <;> rfl

@[simp] theorem decode_encode (c : Codec α) (a : α) : c.decode (c.encode a) = c.reload a := rfl

@[simp] theorem str_reload (s : String) : str.reload s = some s := rfl

@[simp] theorem bool_reload (b : Bool) : bool.reload b = some b := rfl

@[simp] theorem int_reload (n : ℤ) : int.reload n = some n := rfl

@[simp] theorem nat_reload (n : ℕ) : nat.reload n = some n := by
  simp [reload, nat]

@[simp] theorem float_reload (x : PyFloat) :
    float.reload x = if x.isFinite then some x else none := by
  cases x <;> rfl

@[simp] theorem any_reload (j : Json) : any.reload j = some j.encodeAny := rfl

theorem option_reload_some {c : Codec α} {a : α} (h : c.encode a ≠ .null) :
    c.option.reload (some a) = (c.reload a).map some := by
  unfold reload option
  dsimp only
  split
  · contradiction
  · rfl

/-- An optional text or number comes back, and so does an optional float that is finite. -/
theorem option_float_reload (x : Option PyFloat) :
    float.option.reload x = some (x.filter (·.isFinite)) := by
  cases x with
  | none => rfl
  | some x => cases x <;> rfl

@[simp] theorem option_str_reload (x : Option String) : str.option.reload x = some x := by
  cases x <;> rfl

@[simp] theorem option_int_reload (x : Option ℤ) : int.option.reload x = some x := by
  cases x <;> rfl

theorem decodeItems_map (c : Codec α) (l : List α) :
    decodeItems c (l.map c.encode) = l.mapM c.reload := by
  induction l with
  | nil => rfl
  | cons a l ih =>
    rw [List.map_cons, decodeItems, ih, List.mapM_cons]
    change (c.reload a).bind _ = (c.reload a).bind _
    refine congrArg _ (funext fun a' => ?_)
    cases l.mapM c.reload <;> rfl

theorem list_reload (c : Codec α) (l : List α) : c.list.reload l = l.mapM c.reload :=
  decodeItems_map c l

theorem mapM_eq_some_map {f : α → Option β} {g : α → β} {l : List α}
    (h : ∀ a ∈ l, f a = some (g a)) : l.mapM f = some (l.map g) := by
  induction l with
  | nil => rfl
  | cons a l ih =>
    have ha := h a List.mem_cons_self
    have hl := ih fun b hb => h b (List.mem_cons_of_mem a hb)
    rw [List.mapM_cons, ha, hl]
    rfl

/-- A list is mapped onto itself when each of its members is. -/
theorem mapM_eq_some_self_iff {f : α → Option α} {l : List α} :
    l.mapM f = some l ↔ ∀ a ∈ l, f a = some a := by
  induction l with
  | nil => simp
  | cons a l ih =>
    rw [List.mapM_cons, List.forall_mem_cons, ← ih]
    constructor
    · intro h
      obtain ⟨a', ha, h⟩ := Option.bind_eq_some_iff.1 h
      obtain ⟨l', hl, h⟩ := Option.bind_eq_some_iff.1 h
      obtain ⟨rfl, rfl⟩ := List.cons.inj (Option.some.inj h)
      exact ⟨ha, hl⟩
    · rintro ⟨ha, hl⟩
      rw [ha, hl]
      rfl

theorem list_stable_iff {c : Codec α} {l : List α} : c.list.Stable l ↔ ∀ a ∈ l, c.Stable a := by
  unfold Stable
  rw [list_reload, mapM_eq_some_self_iff]

@[simp] theorem list_str_reload (l : List String) : str.list.reload l = some l :=
  list_stable_iff.2 fun s _ => str_reload s

@[simp] theorem set_reload (s : Finset String) : set.reload s = some s := by
  change (str.list.reload s.sort).map List.toFinset = some s
  rw [list_str_reload, Option.map_some, Finset.sort_toFinset]

/-- The entries of a dictionary as they come back. -/
def reloadEntries (c : Codec α) (l : List (String × α)) : Option (List (String × α)) :=
  l.mapM fun e => (c.reload e.2).map (Prod.mk e.1)

/-- Reading entries with new keys appends them. -/
theorem decodeEntries_map (c : Codec α) {d : Dict String α} {l : List (String × α)}
    (h : (d.keys ++ l.map Prod.fst).Nodup) :
    (decodeEntries c d (l.map fun e => (e.1, c.encode e.2))).map Dict.entries =
      (reloadEntries c l).map (d.entries ++ ·) := by
  induction l generalizing d with
  | nil => simp [decodeEntries, reloadEntries]
  | cons e l ih =>
    obtain ⟨k, a⟩ := e
    have hk : k ∉ d.keys := fun hk => (List.nodup_append.1 h).2.2 k hk k List.mem_cons_self rfl
    have hset : ∀ a' : α, (d.set k a').entries = d.entries ++ [(k, a')] := fun a' =>
      Dict.setEntries_of_notMem hk
    rw [List.map_cons, decodeEntries, reloadEntries, List.mapM_cons]
    change ((c.reload a).bind _).map _ = _
    cases hr : c.reload a with
    | none => simp
    | some a' =>
      have hkeys : (d.set k a').keys = d.keys ++ [k] := by
        simp only [Dict.keys, hset, List.map_append, List.map_cons, List.map_nil]
      have := ih (d := d.set k a') (by
        rw [hkeys, List.append_assoc]
        exact h)
      rw [Option.bind_some, this, hset]
      simp only [Option.map_some, reloadEntries, Option.bind_eq_bind, Option.bind_some,
        Option.pure_def]
      cases l.mapM fun e => (c.reload e.2).map (Prod.mk e.1) <;> simp

theorem dict_reload_entries (c : Codec α) (d : Dict String α) :
    (c.dict.reload d).map Dict.entries = reloadEntries c d.entries := by
  have h : (c.dict.reload d).map Dict.entries = (reloadEntries c d.entries).map ([] ++ ·) :=
    decodeEntries_map c (d := ∅) (l := d.entries) d.nodup
  rw [h]
  simp

theorem dict_reload_of_forall {c : Codec α} {f : α → α} (hf : ∀ a, c.reload a = some (f a))
    (d : Dict String α) : c.dict.reload d = some (d.mapValues fun _ => f) := by
  have h := dict_reload_entries c d
  have hl : reloadEntries c d.entries = some (d.entries.map fun e => (e.1, f e.2)) :=
    mapM_eq_some_map fun e _ => by rw [hf, Option.map_some]
  rw [hl] at h
  obtain ⟨d', hd, he⟩ := Option.map_eq_some_iff.1 h
  have hd' : d' = d.mapValues fun _ => f := Dict.ext_entries he
  rw [hd, hd']

theorem dict_stable_iff {c : Codec α} {d : Dict String α} :
    c.dict.Stable d ↔ ∀ a ∈ d.values, c.Stable a := by
  have h := dict_reload_entries c d
  have hself : c.dict.Stable d ↔ reloadEntries c d.entries = some d.entries := by
    rw [← h, Option.map_eq_some_iff]
    constructor
    · exact fun hs => ⟨d, hs, rfl⟩
    · rintro ⟨d', hd, he⟩
      rwa [Dict.ext_entries he] at hd
  rw [hself, reloadEntries, mapM_eq_some_self_iff, Dict.values, List.forall_mem_map]
  refine forall₂_congr fun e _ => ?_
  rw [Option.map_eq_some_iff, Stable]
  constructor
  · rintro ⟨a, ha, he⟩
    rw [ha, (Prod.mk.inj he).2]
  · exact fun hs => ⟨e.2, hs, rfl⟩

@[simp] theorem dict_str_reload (d : Dict String String) : str.dict.reload d = some d :=
  dict_stable_iff.2 fun s _ => str_reload s

@[simp] theorem dict_int_reload (d : Dict String ℤ) : int.dict.reload d = some d :=
  dict_stable_iff.2 fun n _ => int_reload n

@[simp] theorem dict_any_reload (d : Dict String Json) :
    any.dict.reload d = some (d.mapValues fun _ => Json.encodeAny) :=
  dict_reload_of_forall any_reload d

/-! ## What was read back before -/

/-- What is read back once is stable. -/
def Settles (c : Codec α) : Prop := ∀ a b, c.reload a = some b → c.Stable b

theorem Settles.of_stable {c : Codec α} (h : ∀ a b, c.reload a = some b → b = a) : c.Settles := by
  intro a b hb
  obtain rfl := h a b hb
  exact hb

/-- Members that are mapped onto fixed points. -/
theorem mapM_settles {f : α → Option α} (hf : ∀ a b, f a = some b → f b = some b) {l l' : List α}
    (h : l.mapM f = some l') : l'.mapM f = some l' := by
  induction l generalizing l' with
  | nil =>
    obtain rfl := Option.some.inj h
    rfl
  | cons a l ih =>
    rw [List.mapM_cons] at h
    obtain ⟨b, hb, h⟩ := Option.bind_eq_some_iff.1 h
    obtain ⟨bs, hbs, h⟩ := Option.bind_eq_some_iff.1 h
    obtain rfl := Option.some.inj h
    rw [List.mapM_cons, hf a b hb, ih hbs]
    rfl

theorem Settles.list {c : Codec α} (hc : c.Settles) : c.list.Settles := by
  intro l l' h
  rw [list_reload] at h
  rw [Stable, list_reload]
  exact mapM_settles hc h

theorem Settles.dict {c : Codec α} (hc : c.Settles) : c.dict.Settles := by
  intro d d' h
  have hentries := dict_reload_entries c d
  rw [h, Option.map_some] at hentries
  have hf : ∀ e e' : String × α, (c.reload e.2).map (Prod.mk e.1) = some e' →
      (c.reload e'.2).map (Prod.mk e'.1) = some e' := by
    intro e e' he
    obtain ⟨b, hb, rfl⟩ := Option.map_eq_some_iff.1 he
    rw [hc e.2 b hb, Option.map_some]
  have hself := mapM_settles hf hentries.symm
  rw [dict_stable_iff]
  intro a ha
  rw [mapM_eq_some_self_iff] at hself
  obtain ⟨e, he, rfl⟩ := List.mem_map.1 ha
  obtain ⟨b, hb, hmk⟩ := Option.map_eq_some_iff.1 (hself e he)
  have hbe : b = e.2 := congrArg Prod.snd hmk
  rw [Stable, hb, hbe]

theorem float_settles : float.Settles := by
  refine .of_stable fun x y h => ?_
  rw [float_reload] at h
  split_ifs at h
  exact (Option.some.inj h).symm

theorem any_settles : any.Settles := by
  intro j j' h
  obtain rfl := Option.some.inj h
  exact congrArg some (Json.encodeAny_encodeAny j)

end Codec

end Aidars
