/-
What a reader takes.

A reader takes a value for something of the domain if it gives that, wherever the value comes from
and as long as it may nest so deep (`Reader.Takes`).  A record is put together from fields, and
what it takes is put together from what its fields take: each finds its own value under its name,
or finds nothing and has a default.  Fields of other names are passed over.

`Record.Takes` says so of the fields of an object, and `reader` turns it into a statement on the
whole object.  What a reader takes it reads from the text of the value as well (`readText`).
-/
import FlowGraph.Proofs.Json.Text

namespace FlowGraph.Json

variable {α β : Type}

/-- The reader takes the value for `a`, if it may nest so deep. -/
def Reader.Takes (r : Reader α) (j : Json) (a : α) : Prop :=
  ∀ src : Source, j.depth ≤ src.depth → r src (Document.ofJson j) = .ok a

/-! ### Documents of values -/

namespace Document

mutual

/-- A part without faults is passed over. -/
theorem skip_ofJson : ∀ j : Json, (ofJson j).skip = .ok ()
  | .null | .bool _ | .number _ | .str _ => rfl
  | .arr items => by rw [ofJson, skip, skipItems_ofItems items]
  | .obj fields => by rw [ofJson, skip, skipFields_ofFields fields]

theorem skipItems_ofItems : ∀ items : List Json, skipItems (ofItems items) = .ok ()
  | [] => rfl
  | j :: rest => by rw [ofItems, skipItems, skip_ofJson j]; exact skipItems_ofItems rest

theorem skipFields_ofFields : ∀ fields : List (String × Json), skipFields (ofFields fields) = .ok ()
  | [] => rfl
  | (_, j) :: rest => by rw [ofFields, skipFields, skip_ofJson j]; exact skipFields_ofFields rest

end

/-- What is found in a document is what is found in its value. -/
theorem lookup_ofFields (name : String) (fields : Entries Json) :
    (ofFields fields).lookup name = (Entries.find? name fields).map ofJson := by
  induction fields with
  | nil => rfl
  | cons e rest ih =>
      obtain ⟨k, j⟩ := e
      rw [ofFields, List.lookup_cons, Entries.find?_cons]
      by_cases hk : k = name
      · subst hk
        simp
      · rw [if_neg hk, beq_false_of_ne (Ne.symm hk)]
        exact ih

end Document

namespace Reader

/-! ### Plain values -/

theorem takes_string (s : String) : Takes string (.str s) s := fun _ _ => rfl

theorem takes_boolean (b : Bool) : Takes boolean (.bool b) b := fun _ _ => rfl

theorem takes_natural (name : String) {n max : Nat} (h : n ≤ max) :
    Takes (natural name max) (.nat n) n := by
  intro src _
  show (if 0 ≤ (n : Int) ∧ (n : Int) ≤ max then Except.ok (n : Int).toNat else _) = _
  rw [if_pos (by omega), Int.toNat_natCast]

theorem takes_float {x : Float} (h : x.isFinite) : Takes float (.float x) x := by
  intro src _
  rw [Json.float, if_pos h]
  rfl

theorem takes_json {j : Json} (h : j.Legal) : Takes json j j := by
  intro src hdepth
  rw [json, Document.value?_ofJson h hdepth]

/-! ### Containers -/

theorem Takes.option {r : Reader α} {j : Json} {a : α} (h : r.Takes j a) (hj : j ≠ .null) :
    Takes r.option j (some a) := by
  intro src hdepth
  rw [Reader.option.eq_def]
  split
  · rename_i heq
    cases j <;> first | exact absurd rfl hj | (simp [Document.ofJson] at heq)
  · rw [h src hdepth]
    rfl

theorem takes_none (r : Reader α) : Takes r.option .null none := fun _ _ => rfl

theorem readAll_ofItems {r : Reader α} {f : α → Json} (src : Source) :
    ∀ {as : List α}, (∀ a ∈ as, r.Takes (f a) a) → depthItems (as.map f) ≤ src.depth →
      readAll r src (Document.ofItems (as.map f)) = .ok as
  | [], _, _ => rfl
  | a :: as, h, hdepth => by
      obtain ⟨hhead, hrest⟩ := max_le_iff.mp hdepth
      have ih := readAll_ofItems src (fun b hb => h b (List.mem_cons_of_mem a hb)) hrest
      rw [List.map_cons, Document.ofItems, readAll, h a List.mem_cons_self src hhead, ih]
      rfl

theorem Source.deeper_of_lt {src : Source} {n : Nat} (h : n + 1 ≤ src.depth) :
    ∃ inner, src.deeper = .ok inner ∧ n ≤ inner.depth ∧ inner.ofText = src.ofText := by
  obtain ⟨ofText, depth⟩ := src
  cases depth with
  | zero => exact absurd h (Nat.not_succ_le_zero n)
  | succ depth => exact ⟨⟨ofText, depth⟩, rfl, Nat.le_of_succ_le_succ h, rfl⟩

theorem takes_list {r : Reader α} {f : α → Json} {as : List α} (h : ∀ a ∈ as, r.Takes (f a) a) :
    Takes (list r) (.arr (as.map f)) as := by
  intro src hdepth
  obtain ⟨inner, hinner, hle, -⟩ := Source.deeper_of_lt hdepth
  have hall := readAll_ofItems inner h hle
  exact bind_ok_iff.mpr ⟨inner, hinner, bind_ok_iff.mpr ⟨as, hall, rfl⟩⟩

theorem readEach_ofFields {r : Reader α} {f : α → Json} (src : Source) :
    ∀ {es : Entries α}, (∀ e ∈ es, r.Takes (f e.2) e.2) →
      depthFields (Entries.mapValues f es) ≤ src.depth →
        readEach r src (Document.ofFields (Entries.mapValues f es)) = .ok es
  | [], _, _ => rfl
  | (k, a) :: es, h, hdepth => by
      obtain ⟨hhead, hrest⟩ := max_le_iff.mp hdepth
      have ih := readEach_ofFields src (fun e he => h e (List.mem_cons_of_mem _ he)) hrest
      show readEach r src ((k, Document.ofJson (f a)) ::
        Document.ofFields (Entries.mapValues f es)) = _
      rw [readEach, h _ List.mem_cons_self src hhead, ih]
      rfl

theorem takes_table {r : Reader α} {f : α → Json} {es : Entries α} (hs : Entries.Sorted es)
    (h : ∀ e ∈ es, r.Takes (f e.2) e.2) : Takes (table r) (.obj (Entries.mapValues f es)) es := by
  intro src hdepth
  obtain ⟨inner, hinner, hle, -⟩ := Source.deeper_of_lt hdepth
  have heach := readEach_ofFields inner h hle
  have hsame : Except.ok (Entries.ofList es) = (.ok es : Except Mismatch (Entries α)) :=
    congrArg Except.ok (Entries.ofList_eq hs)
  exact bind_ok_iff.mpr ⟨inner, hinner, bind_ok_iff.mpr ⟨es, heach, hsame⟩⟩

/-- A constant is taken by its name. -/
theorem takes_variant {names : List (String × α)} {name : String} {a : α}
    (h : names.lookup name = some a) : Takes (variant names none) (.str name) a := by
  intro src _
  show variantOf names none name = .ok a
  simp only [variantOf, h]

end Reader

/-! ### Records -/

namespace Record

/-- From such fields of an object the record is read. -/
structure Takes (R : Record α) (fields : Entries Json) (a : α) : Prop where
  value : ∀ src : Source, depthFields fields ≤ src.depth →
    R.ofFields src (Document.ofFields fields) = .ok a
  checks : ∀ src : Source, depthFields fields ≤ src.depth → ∀ {name check j},
    R.fields.lookup name = some check → Entries.find? name fields = some j →
      check src (Document.ofJson j) = .ok ()

variable {fields : Entries Json}

theorem takes_pure (a : α) : Takes (Pure.pure a) fields a where
  value _ _ := rfl
  checks _ _ _ _ _ h := by cases h

theorem Takes.seq {f : Record (α → β)} {x : Record α} {g : α → β} {a : α} (hf : f.Takes fields g)
    (hx : x.Takes fields a) : Takes (f <*> x) fields (g a) where
  value src hdepth :=
    bind_ok_iff.mpr ⟨g, hf.value src hdepth, bind_ok_iff.mpr ⟨a, hx.value src hdepth, rfl⟩⟩
  checks src hdepth name check j hlookup hfind := by
    have happend : (f.fields ++ x.fields).lookup name = some check := hlookup
    rw [List.lookup_append] at happend
    cases hl : f.fields.lookup name with
    | some c =>
        rw [hl] at happend
        obtain rfl := Option.some.inj happend
        exact hf.checks src hdepth hl hfind
    | none =>
        rw [hl] at happend
        exact hx.checks src hdepth happend hfind

theorem Takes.map {x : Record α} (g : α → β) {a : α} (hx : x.Takes fields a) :
    Takes (g <$> x) fields (g a) :=
  Takes.seq (takes_pure g) hx

theorem depth_of_find? {name : String} {j : Json} {n : Nat} (hdepth : depthFields fields ≤ n)
    (h : Entries.find? name fields = some j) : j.depth ≤ n :=
  depthFields_le.mp hdepth _ (Entries.mem_of_find? h)

/-- A field that is there. -/
theorem takes_field {name : String} {r : Reader α} {absent : Absent α} {j : Json} {a : α}
    (hfind : Entries.find? name fields = some j) (h : r.Takes j a) :
    Takes (field name r absent) fields a where
  value src hdepth := by
    have hread := h src (depth_of_find? hdepth hfind)
    simp only [field, Document.lookup_ofFields, hfind, Option.map_some]
    exact hread
  checks src hdepth name' check j' hlookup hfind' := by
    rw [field, List.lookup_cons] at hlookup
    split at hlookup
    · rename_i heq
      obtain rfl := eq_of_beq heq
      obtain rfl := Option.some.inj hlookup
      obtain rfl := Option.some.inj (hfind.symm.trans hfind')
      show (r src _).map _ = _
      rw [h src (depth_of_find? hdepth hfind)]
      rfl
    · cases hlookup

/-- A field that is not there and has a default. -/
theorem takes_absent {name : String} {r : Reader α} {absent : Absent α} {a : α}
    (hfind : Entries.find? name fields = none)
    (habsent : absent = .inObject a ∨ absent = .anywhere a) :
    Takes (field name r absent) fields a where
  value src _ := by
    simp only [field, Document.lookup_ofFields, hfind, Option.map_none]
    rcases habsent with rfl | rfl <;> rfl
  checks src _ name' check j' hlookup hfind' := by
    rw [field, List.lookup_cons] at hlookup
    split at hlookup
    · rename_i heq
      obtain rfl := eq_of_beq heq
      rw [hfind] at hfind'
      cases hfind'
    · cases hlookup

/-- The fields pass their checks, since none comes twice. -/
theorem checkFields_ofFields {known : List (String × Reader Unit)} {src : Source} :
    ∀ {fields : Entries Json} {seen : List String}, (Entries.keys fields).Nodup →
      (∀ name ∈ Entries.keys fields, name ∉ seen) →
      (∀ e ∈ fields, ∀ check, known.lookup e.1 = some check →
        check src (Document.ofJson e.2) = .ok ()) →
      checkFields known src seen (Document.ofFields fields) = .ok ()
  | [], _, _, _, _ => rfl
  | (name, j) :: fields, seen, hnodup, hseen, hchecks => by
      obtain ⟨hhead, hrest⟩ := List.nodup_cons.mp hnodup
      have hmore : ∀ e ∈ fields, ∀ check, known.lookup e.1 = some check →
          check src (Document.ofJson e.2) = .ok () := fun e he =>
        hchecks e (List.mem_cons_of_mem _ he)
      have hnew : seen.contains name = false := by
        rw [List.contains_eq_mem, decide_eq_false_iff_not]
        exact hseen name List.mem_cons_self
      rw [Document.ofFields, checkFields]
      cases hlookup : known.lookup name with
      | some check =>
          have hcheck := hchecks _ List.mem_cons_self check hlookup
          simp only [hnew, Bool.false_eq_true, if_false, hcheck]
          refine checkFields_ofFields hrest (fun other hother hmem => ?_) hmore
          rcases List.mem_cons.mp hmem with rfl | hmem
          · exact hhead hother
          · exact hseen other (List.mem_cons_of_mem _ hother) hmem
      | none =>
          simp only [Document.skip_ofJson]
          exact checkFields_ofFields hrest
            (fun other hother => hseen other (List.mem_cons_of_mem _ hother)) hmore

/-- **A record is read from an object whose fields it takes.** -/
theorem Takes.reader {R : Record α} {a : α} (h : R.Takes fields a) (hs : Entries.Sorted fields)
    (name : String) : Reader.Takes (R.reader name) (.obj fields) a := by
  intro src hdepth
  obtain ⟨inner, hinner, hle, -⟩ := Reader.Source.deeper_of_lt hdepth
  have hchecks : checkFields R.fields inner [] (Document.ofFields fields) = .ok () :=
    checkFields_ofFields hs.nodup_keys (fun _ _ => by simp) fun e he check hlookup =>
      h.checks inner hle hlookup (hs.find?_iff_mem.mpr he)
  exact bind_ok_iff.mpr ⟨inner, hinner, bind_ok_iff.mpr ⟨(), hchecks, h.value inner hle⟩⟩

/-- A field of an object that was written with its fields in some order. -/
theorem takes_written {fields : List (String × Json)} {name : String} {r : Reader α}
    {absent : Absent α} {j : Json} {a : α} (h : r.Takes j a)
    (hnodup : (Entries.keys fields).Nodup) (hfind : Entries.find? name fields = some j) :
    Takes (field name r absent) (Entries.ofList fields) a :=
  takes_field ((Entries.find?_ofList hnodup).trans hfind) h

theorem takes_unwritten {fields : List (String × Json)} {name : String} {r : Reader α}
    {absent : Absent α} {a : α} (habsent : absent = .inObject a ∨ absent = .anywhere a)
    (hnodup : (Entries.keys fields).Nodup) (hfind : Entries.find? name fields = none) :
    Takes (field name r absent) (Entries.ofList fields) a :=
  takes_absent ((Entries.find?_ofList hnodup).trans hfind) habsent

theorem Takes.object {R : Record α} {fields : List (String × Json)} {a : α}
    (h : R.Takes (Entries.ofList fields) a) (name : String) :
    Reader.Takes (R.reader name) (Json.object fields) a :=
  h.reader (Entries.sorted_ofList fields) name

end Record

/-! ### Texts -/

/-- **What a reader takes it also reads from the text of the value.** -/
theorem Reader.Takes.readText {r : Reader α} {j : Json} {a : α} (h : r.Takes j a) (hj : j.Legal)
    (hdepth : j.depth ≤ nestingLimit) : readText r (compact j) = .ok a := by
  rw [Json.readText, Document.ofText_compact hj]
  simp only [h Source.text hdepth]
  rfl

end FlowGraph.Json
