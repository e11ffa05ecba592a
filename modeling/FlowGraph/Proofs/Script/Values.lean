/-
JSON values in scripts.

A script is bound to JSON values and gives one back.  In between there are the values that
it computes with, whose integers have 64 bits with a sign.  So an integer above that enters as a
float, and this is all that a value loses on the way in and out (`toJson_ofJson`): whatever stands
at any place of it comes back, numbers of the one kind as numbers of this kind.  No value but `null`
is ever taken for the unit.

`mapNumbers` puts other numbers in the places of a value and leaves all else as it is.
-/
import FlowGraph.Proofs.Decimal.Integers
import FlowGraph.Proofs.Json.Places
import FlowGraph.Script.Value

namespace FlowGraph

/-! ### Other numbers -/

namespace Json

mutual

/-- The value with other numbers. -/
def mapNumbers (f : Number → Number) : Json → Json
  | .null => .null
  | .bool b => .bool b
  | .number n => .number (f n)
  | .str s => .str s
  | .arr items => .arr (mapNumbersItems f items)
  | .obj fields => .obj (mapNumbersFields f fields)

def mapNumbersItems (f : Number → Number) : List Json → List Json
  | [] => []
  | j :: rest => mapNumbers f j :: mapNumbersItems f rest

def mapNumbersFields (f : Number → Number) : List (String × Json) → List (String × Json)
  | [] => []
  | (k, j) :: rest => (k, mapNumbers f j) :: mapNumbersFields f rest

end

variable {f : Number → Number}

theorem mapNumbersItems_eq (items : List Json) :
    mapNumbersItems f items = items.map (mapNumbers f) := by
  induction items with
  | nil => rfl
  | cons j rest ih => rw [mapNumbersItems, ih, List.map_cons]

theorem mapNumbersFields_eq (fields : List (String × Json)) :
    mapNumbersFields f fields = Entries.mapValues (mapNumbers f) fields := by
  induction fields with
  | nil => rfl
  | cons e rest ih =>
      rw [mapNumbersFields, ih]
      rfl

/-- At every place the number is another one. -/
theorem at?_mapNumbers : ∀ (p : Place) (j : Json),
    at? p (mapNumbers f j) = (at? p j).map (mapNumbers f)
  | [], _ => rfl
  | .item i :: p, .arr items => by
      rw [mapNumbers, at?, at?, mapNumbersItems_eq, List.getElem?_map]
      cases items[i]? with
      | none => rfl
      | some j => exact at?_mapNumbers p j
  | .field name :: p, .obj fields => by
      rw [mapNumbers, at?, at?, mapNumbersFields_eq, Entries.find?_mapValues]
      cases Entries.find? name fields with
      | none => rfl
      | some j => exact at?_mapNumbers p j
  | .item _ :: _, .obj _ | .field _ :: _, .arr _ => rfl
  | .item _ :: _, .null | .item _ :: _, .bool _ | .item _ :: _, .number _ | .item _ :: _, .str _ =>
      rfl
  | .field _ :: _, .null | .field _ :: _, .bool _ | .field _ :: _, .number _
  | .field _ :: _, .str _ => rfl

/-- A value stays as it is if its children do. -/
theorem mapNumbers_children {j : Json} (hleaf : ∀ n, j = .number n → f n = n)
    (h : ∀ c ∈ children j, mapNumbers f c.2 = c.2) : mapNumbers f j = j := by
  cases j with
  | number n => rw [mapNumbers, hleaf n rfl]
  | arr items =>
      rw [mapNumbers, mapNumbersItems_eq]
      refine congrArg Json.arr ((List.map_congr_left fun j hj => ?_).trans (List.map_id items))
      obtain ⟨i, hi, rfl⟩ := List.getElem_of_mem hj
      exact h _ (List.mem_mapIdx.mpr ⟨i, hi, rfl⟩)
  | obj fields =>
      rw [mapNumbers, mapNumbersFields_eq]
      refine congrArg Json.obj ((List.map_congr_left fun e he => ?_).trans (List.map_id fields))
      exact Prod.ext rfl (h _ (List.mem_map.mpr ⟨e, he, rfl⟩))
  | _ => rfl

/-- **A value stays as it is if and only if every number in it does.** -/
theorem mapNumbers_eq_self_iff {j : Json} (hj : j.Legal) :
    mapNumbers f j = j ↔ ∀ p n, at? p j = some (.number n) → f n = n := by
  constructor
  · intro h p n hn
    have hmapped := at?_mapNumbers (f := f) p j
    rw [h, hn] at hmapped
    exact (Json.number.inj (Option.some.inj hmapped)).symm
  · revert hj
    -- From the leaves upwards: what stands in a child stands in the value one step further in.
    refine byChildren (P := fun j => j.Legal → (∀ p n, at? p j = some (.number n) → f n = n) →
      mapNumbers f j = j) (fun j ih hj h => ?_) j
    refine mapNumbers_children (fun n hn => h [] n (by rw [hn]; rfl)) fun c hc => ?_
    refine ih c hc (legal_of_mem_children hj c hc) fun p n hn => h (c.1 :: p) n ?_
    rw [at?_child (children_nodup hj) hc, hn]

/-- What stands in a legal value is legal. -/
theorem legal_at? {p : Place} {j c : Json} (hj : j.Legal) (h : at? p j = some c) : c.Legal := by
  induction p generalizing j with
  | nil => exact Option.some.inj h ▸ hj
  | cons step p ih =>
      obtain ⟨d, hd, hc⟩ := mem_children_of_at? h
      exact ih (legal_of_mem_children hj _ hd) hc

end Json

/-! ### There and back -/

/-- The number as it comes back from a script. -/
def Number.inScript : Number → Number
  | .int i => if Script.fits i then .int i else .float (Float.ofInt i)
  | .float x => .float x

theorem Number.inScript_eq_self_iff (n : Number) :
    n.inScript = n ↔ ∀ i, n = .int i → Script.fits i = true := by
  cases n with
  | float x => exact iff_of_true rfl nofun
  | int i =>
      rw [inScript]
      split
      · rename_i hfits
        exact iff_of_true rfl fun k hk => Number.int.inj hk ▸ hfits
      · rename_i hfits
        exact iff_of_false nofun fun h => hfits (h i rfl)

/-- The value as it comes back from a script. -/
def Json.inScript (j : Json) : Json := j.mapNumbers Number.inScript

namespace Script

theorem toJson_ofNumber {n : Number} (hn : (Json.number n).Legal) :
    (ofNumber n).toJson = .ok (.number n.inScript) := by
  have hfloat : ∀ {x : Float}, x.isFinite = true →
      (Val.float x).toJson = .ok (.number (.float x)) :=
    fun h => by rw [Val.toJson, Json.float, if_pos h]
  cases n with
  | float x => exact hfloat hn
  | int i =>
      rw [ofNumber, Number.inScript]
      split
      · rfl
      · exact hfloat (Decimal.isFinite_ofInt hn)

mutual

/-- **A value comes back from a script as it went in**, but for the integers that are too large for
a script. -/
theorem toJson_ofJson : ∀ {j : Json}, j.Legal → (Val.ofJson j).toJson = .ok j.inScript
  | .null, _ | .bool _, _ | .str _, _ => rfl
  | .number _, hj => toJson_ofNumber hj
  | .arr items, hj => by
      rw [Val.ofJson, Val.toJson, toItems_ofItems hj]
      rfl
  | .obj fields, hj => by
      rw [Val.ofJson, Val.toJson, toFields_ofFields hj.2]
      rfl

theorem toItems_ofItems : ∀ {items : List Json}, Json.LegalItems items →
    toItems (ofItems items) = .ok (Json.mapNumbersItems Number.inScript items)
  | [], _ => rfl
  | j :: rest, hj => by
      rw [ofItems, toItems, toJson_ofJson hj.1, toItems_ofItems hj.2]
      rfl

theorem toFields_ofFields : ∀ {fields : List (String × Json)}, Json.LegalFields fields →
    toFields (ofFields fields) = .ok (Json.mapNumbersFields Number.inScript fields)
  | [], _ => rfl
  | (k, j) :: rest, hj => by
      rw [ofFields, toFields, toJson_ofJson hj.1, toFields_ofFields hj.2]
      rfl

end

/-- The unit stands for `null` and for nothing else. -/
theorem ofJson_eq_unit_iff (j : Json) : Val.ofJson j = .unit ↔ j = .null := by
  refine ⟨fun h => ?_, fun h => h ▸ rfl⟩
  cases j with
  | null => rfl
  | number n =>
      rw [Val.ofJson] at h
      cases n with
      | int i =>
          rw [ofNumber] at h
          split at h <;> cases h
      | float x => cases h
  | _ => cases h

theorem ofFields_eq (fields : List (String × Json)) :
    ofFields fields = Entries.mapValues Val.ofJson fields := by
  induction fields with
  | nil => rfl
  | cons e rest ih =>
      rw [ofFields, ih]
      rfl

/-- A field of an object is a field of the map that stands for it. -/
theorem find?_ofFields (name : String) (fields : List (String × Json)) :
    Entries.find? name (ofFields fields) = (Entries.find? name fields).map Val.ofJson := by
  rw [ofFields_eq, Entries.find?_mapValues]

end Script

end FlowGraph
