/-
Legal values.

Readers and computations make no other values than legal ones: integers in their range, floats
that are finite, objects with their fields in order.  A document that was read from a text is made
of legal numbers, whatever the text (`ofText_sound`), so the value of such a document is legal, and
it nests no deeper than it was read (`value?_legal`).  The other way round a legal value is the
value of its document wherever it may nest so deep (`value?_ofJson`).
-/
import FlowGraph.Json.Reader
import FlowGraph.Proofs.Decimal.Bits
import FlowGraph.Proofs.Entries

namespace FlowGraph.Json

/-- A result has come from results. -/
theorem bind_ok_iff {ε α β : Type} {x : Except ε α} {f : α → Except ε β} {b : β} :
    (x >>= f) = .ok b ↔ ∃ a, x = .ok a ∧ f a = .ok b := by
  cases x with
  | error e => exact ⟨nofun, nofun⟩
  | ok a => exact ⟨fun h => ⟨a, rfl, h⟩, fun ⟨_, h, hf⟩ => Except.ok.inj h ▸ hf⟩

/-! ### Values -/

mutual

/-- A value as readers and computations make it: the integers are in range, the floats are finite,
and the fields stand in the order of their names. -/
def Legal : Json → Prop
  | .null | .bool _ | .str _ => True
  | .number (.int i) => Number.inRange i = true
  | .number (.float x) => x.isFinite = true
  | .arr items => LegalItems items
  | .obj fields => Entries.Sorted fields ∧ LegalFields fields

def LegalItems : List Json → Prop
  | [] => True
  | j :: rest => Legal j ∧ LegalItems rest

def LegalFields : List (String × Json) → Prop
  | [] => True
  | (_, j) :: rest => Legal j ∧ LegalFields rest

end

mutual

/-- How deep lists and objects nest. -/
def depth : Json → Nat
  | .null | .bool _ | .str _ | .number _ => 0
  | .arr items => depthItems items + 1
  | .obj fields => depthFields fields + 1

def depthItems : List Json → Nat
  | [] => 0
  | j :: rest => max (depth j) (depthItems rest)

def depthFields : List (String × Json) → Nat
  | [] => 0
  | (_, j) :: rest => max (depth j) (depthFields rest)

end

theorem legalItems_iff {items : List Json} : LegalItems items ↔ ∀ j ∈ items, j.Legal := by
  induction items with
  | nil => simp [LegalItems]
  | cons j rest ih => simp [LegalItems, ih]

theorem legalFields_iff {fields : List (String × Json)} :
    LegalFields fields ↔ ∀ e ∈ fields, e.2.Legal := by
  induction fields with
  | nil => simp [LegalFields]
  | cons e rest ih => simp [LegalFields, ih]

theorem depthFields_le {fields : List (String × Json)} {n : Nat} :
    depthFields fields ≤ n ↔ ∀ e ∈ fields, e.2.depth ≤ n := by
  induction fields with
  | nil => simp [depthFields]
  | cons e rest ih => simp [depthFields, ih]

theorem legal_float (x : Float) : (Json.float x).Legal := by
  rw [Json.float]
  split
  · assumption
  · trivial

@[simp] theorem depth_float (x : Float) : (Json.float x).depth = 0 := by
  rw [Json.float]
  split <;> rfl

theorem legal_ofOption (s : Option String) : (Json.ofOption s).Legal := by
  cases s <;> trivial

@[simp] theorem depth_ofOption (s : Option String) : (Json.ofOption s).depth = 0 := by
  cases s <;> rfl

theorem Legal.object {fields : List (String × Json)} (h : ∀ e ∈ fields, e.2.Legal) :
    (Json.object fields).Legal :=
  ⟨Entries.sorted_ofList fields,
    legalFields_iff.mpr fun e he => h e (Entries.mem_ofList he)⟩

theorem Legal.field {fields : List (String × Json)} {name : String} {j : Json}
    (h : (Json.object fields).Legal) (hnodup : (Entries.keys fields).Nodup)
    (hfind : Entries.find? name fields = some j) : j.Legal :=
  legalFields_iff.mp h.2 _ (Entries.mem_of_find? ((Entries.find?_ofList hnodup).trans hfind))

theorem depth_object {fields : List (String × Json)} {n : Nat} (h : ∀ e ∈ fields, e.2.depth ≤ n) :
    (Json.object fields).depth ≤ n + 1 :=
  Nat.succ_le_succ (depthFields_le.mpr fun e he => h e (Entries.mem_ofList he))

namespace Document

/-! ### Values of documents -/

mutual

/-- **A legal value is the value of its document.** -/
theorem value?_ofJson : ∀ {j : Json}, j.Legal → ∀ {n : Nat}, j.depth ≤ n →
    (ofJson j).value? n = .ok j
  | .null, _, _, _ | .bool _, _, _, _ | .str _, _, _, _ | .number _, _, _, _ => rfl
  | .arr items, hj, n, hn => by
      obtain ⟨n, rfl⟩ := Nat.exists_eq_add_of_le' (le_trans (Nat.le_add_left 1 _) hn)
      rw [ofJson, value?, values?_ofItems hj (Nat.le_of_succ_le_succ hn)]
  | .obj fields, hj, n, hn => by
      obtain ⟨n, rfl⟩ := Nat.exists_eq_add_of_le' (le_trans (Nat.le_add_left 1 _) hn)
      rw [ofJson, value?, fieldValues?_ofFields hj.2 (Nat.le_of_succ_le_succ hn)]
      simp only [Json.object, Entries.ofList_eq hj.1]

theorem values?_ofItems : ∀ {items : List Json}, LegalItems items → ∀ {n : Nat},
    depthItems items ≤ n → values? n (ofItems items) = .ok items
  | [], _, _, _ => rfl
  | j :: rest, hj, n, hn => by
      obtain ⟨hhead, hrest⟩ := max_le_iff.mp hn
      rw [ofItems, values?, value?_ofJson hj.1 hhead, values?_ofItems hj.2 hrest]
      rfl

theorem fieldValues?_ofFields : ∀ {fields : List (String × Json)}, LegalFields fields →
    ∀ {n : Nat}, depthFields fields ≤ n → fieldValues? n (ofFields fields) = .ok fields
  | [], _, _, _ => rfl
  | (k, j) :: rest, hj, n, hn => by
      obtain ⟨hhead, hrest⟩ := max_le_iff.mp hn
      rw [ofFields, fieldValues?, value?_ofJson hj.1 hhead, fieldValues?_ofFields hj.2 hrest]
      rfl

end

mutual

/-- The numbers of the document are legal. -/
def Sound : Document → Prop
  | .number n => (Json.number n).Legal
  | .arr items _ => SoundItems items
  | .obj fields _ => SoundFields fields
  | _ => True

def SoundItems : List Document → Prop
  | [] => True
  | d :: rest => Sound d ∧ SoundItems rest

def SoundFields : List (String × Document) → Prop
  | [] => True
  | (_, d) :: rest => Sound d ∧ SoundFields rest

end

mutual

/-- **The value of a sound document is legal, and nests no deeper than it may.** -/
theorem value?_legal : ∀ {d : Document}, d.Sound → ∀ {n : Nat} {j : Json}, d.value? n = .ok j →
    j.Legal ∧ j.depth ≤ n
  | .null, _, _, _, h | .bool _, _, _, _, h | .str _, _, _, _, h => by
      obtain rfl := Except.ok.inj h
      exact ⟨trivial, Nat.zero_le _⟩
  | .number m, hd, _, _, h => by
      obtain rfl := Except.ok.inj h
      exact ⟨hd, Nat.zero_le _⟩
  | .broken _, _, _, _, h | .valueless _, _, _, _, h => by cases h
  | .arr items stop, hd, n, j, h => by
      cases n with
      | zero => cases h
      | succ n =>
          rw [value?] at h
          cases hvalues : values? n items with
          | error f => rw [hvalues] at h; cases h
          | ok js =>
              rw [hvalues] at h
              cases stop with
              | some f => cases h
              | none =>
                  obtain rfl := Except.ok.inj h
                  obtain ⟨hlegal, hdepth⟩ := values?_legal hd hvalues
                  exact ⟨hlegal, Nat.succ_le_succ hdepth⟩
  | .obj fields stop, hd, n, j, h => by
      cases n with
      | zero => cases h
      | succ n =>
          rw [value?] at h
          cases hvalues : fieldValues? n fields with
          | error f => rw [hvalues] at h; cases h
          | ok fs =>
              rw [hvalues] at h
              cases stop with
              | some f => cases h
              | none =>
                  obtain rfl := Except.ok.inj h
                  obtain ⟨hlegal, hdepth⟩ := fieldValues?_legal hd hvalues
                  exact ⟨.object (legalFields_iff.mp hlegal),
                    depth_object (depthFields_le.mp hdepth)⟩

theorem values?_legal : ∀ {ds : List Document}, SoundItems ds → ∀ {n : Nat} {js : List Json},
    values? n ds = .ok js → LegalItems js ∧ depthItems js ≤ n
  | [], _, _, _, h => by
      obtain rfl := Except.ok.inj h
      exact ⟨trivial, Nat.zero_le _⟩
  | d :: rest, hd, n, js, h => by
      rw [values?] at h
      cases hvalue : value? n d with
      | error f => rw [hvalue] at h; cases h
      | ok j =>
          rw [hvalue] at h
          cases hrest : values? n rest with
          | error f => rw [hrest] at h; cases h
          | ok more =>
              rw [hrest] at h
              obtain rfl := Except.ok.inj h
              obtain ⟨hj, hdepth⟩ := value?_legal hd.1 hvalue
              obtain ⟨hmore, hdepths⟩ := values?_legal hd.2 hrest
              exact ⟨⟨hj, hmore⟩, max_le hdepth hdepths⟩

theorem fieldValues?_legal : ∀ {ds : List (String × Document)}, SoundFields ds → ∀ {n : Nat}
    {fs : List (String × Json)}, fieldValues? n ds = .ok fs →
      LegalFields fs ∧ depthFields fs ≤ n
  | [], _, _, _, h => by
      obtain rfl := Except.ok.inj h
      exact ⟨trivial, Nat.zero_le _⟩
  | (k, d) :: rest, hd, n, fs, h => by
      rw [fieldValues?] at h
      cases hvalue : value? n d with
      | error f => rw [hvalue] at h; cases h
      | ok j =>
          rw [hvalue] at h
          cases hrest : fieldValues? n rest with
          | error f => rw [hrest] at h; cases h
          | ok more =>
              rw [hrest] at h
              obtain rfl := Except.ok.inj h
              obtain ⟨hj, hdepth⟩ := value?_legal hd.1 hvalue
              obtain ⟨hmore, hdepths⟩ := fieldValues?_legal hd.2 hrest
              exact ⟨⟨hj, hmore⟩, max_le hdepth hdepths⟩

end

/-! ### Documents of texts -/

theorem floatOf_sound (negative : Bool) (n : Decimal.Numeral) : (floatOf negative n).Sound := by
  rw [floatOf]
  split
  · rename_i hfinite
    cases negative with
    | false => exact hfinite
    | true => exact Decimal.isFinite_neg hfinite
  · trivial

theorem integerOf_sound (negative : Bool) (digits : List Char) :
    (integerOf negative digits).Sound := by
  rw [integerOf]
  split
  · split
    · rename_i h
      exact h.2
    · exact floatOf_sound _ _
  · split
    · assumption
    · exact floatOf_sound _ _

theorem readTail_sound {negative isFloat : Bool} {whole fraction cs : List Char}
    {r : Document × List Char} (h : readTail negative whole fraction isFloat cs = .ok r) :
    r.1.Sound := by
  cases cs with
  | nil =>
      cases isFloat with
      | true =>
          obtain rfl := Except.ok.inj h
          exact floatOf_sound _ _
      | false =>
          obtain rfl := Except.ok.inj h
          exact integerOf_sound _ _
  | cons c rest =>
      rw [readTail.eq_def] at h
      dsimp only at h
      split at h
      · split at h
        · cases h
        · split at h
          · obtain rfl := Except.ok.inj h
            exact floatOf_sound _ _
          · cases h
      · split at h
        · obtain rfl := Except.ok.inj h
          exact floatOf_sound _ _
        · obtain rfl := Except.ok.inj h
          exact integerOf_sound _ _

theorem readNumber_sound {negative : Bool} {cs : List Char} {r : Document × List Char}
    (h : readNumber negative cs = .ok r) : r.1.Sound := by
  rw [readNumber.eq_def] at h
  dsimp only at h
  split at h
  · cases h
  · cases h
  · cases h
  · split at h
    · cases h
    · cases h
    · exact readTail_sound h
  · exact readTail_sound h

theorem readWord_sound {value : Document} (hvalue : value.Sound) :
    ∀ (word cs : List Char), (readWord word value cs).1.Sound
  | [], _ => hvalue
  | _ :: _, [] => trivial
  | w :: ws, c :: rest => by
      rw [readWord]
      split
      · exact readWord_sound hvalue ws rest
      · trivial

theorem numberStep_sound {negative : Bool} {cs : List Char} :
    (numberStep (readNumber negative cs)).1.Sound := by
  cases h : readNumber negative cs with
  | error f => trivial
  | ok r => exact readNumber_sound h

/-- What is read with so much budget is sound. -/
structure ReadsSound (fuel : Nat) : Prop where
  value : ∀ cs, (readValue fuel cs).1.Sound
  items : ∀ first cs, SoundItems (readItems fuel first cs).1
  fields : ∀ first cs, SoundFields (readFields fuel first cs).1

theorem readsSound : ∀ fuel, ReadsSound fuel
  | 0 => ⟨fun _ => trivial, fun _ _ => trivial, fun _ _ => trivial⟩
  | fuel + 1 => by
      have ih := readsSound fuel
      refine ⟨fun cs => ?_, fun first cs => ?_, fun first cs => ?_⟩
      · rw [readValue.eq_def]
        dsimp only
        split
        · trivial
        · exact readWord_sound (show Sound .null from trivial) _ _
        · exact readWord_sound (show Sound (.bool true) from trivial) _ _
        · exact readWord_sound (show Sound (.bool false) from trivial) _ _
        · exact numberStep_sound
        · split <;> trivial
        · exact ih.items true _
        · exact ih.fields true _
        · split
          · exact numberStep_sound
          · trivial
      · rw [readItems.eq_def]
        dsimp only
        split
        · trivial
        · trivial
        · rename_i rest _
          have hvalue := ih.value rest
          split
          · rename_i heq
            rw [heq] at hvalue
            exact ⟨hvalue, trivial⟩
          · rename_i heq
            rw [heq] at hvalue
            exact ⟨hvalue, ih.items false _⟩
      · rw [readFields.eq_def]
        dsimp only
        split
        · trivial
        · trivial
        · split
          · trivial
          · trivial
          · split
            · exact ⟨trivial, trivial⟩
            · rename_i rest _
              have hvalue := ih.value rest
              split
              · rename_i heq
                rw [heq] at hvalue
                exact ⟨hvalue, trivial⟩
              · rename_i heq
                rw [heq] at hvalue
                exact ⟨hvalue, ih.fields false _⟩
            · exact ⟨trivial, trivial⟩

/-- **A document read from a text is made of legal numbers.** -/
theorem ofText_sound (s : String) : (ofText s).1.Sound := by
  have hvalue := (readsSound (s.toList.length + 2)).value s.toList
  rw [ofText]
  split
  · rename_i heq
    rw [heq] at hvalue
    exact hvalue
  · rename_i heq
    rw [heq] at hvalue
    exact hvalue

end Document

/-- What is read from a text is legal, and nests no deeper than the limit. -/
theorem parse_legal {n : Nat} {s : String} {j : Json} (h : parse n s = .ok j) :
    j.Legal ∧ j.depth ≤ n := by
  rw [parse] at h
  dsimp only at h
  split at h
  · cases h
  · rename_i hvalue
    split at h
    · cases h
    · obtain rfl := Except.ok.inj h
      exact Document.value?_legal (Document.ofText_sound s) hvalue

end FlowGraph.Json
