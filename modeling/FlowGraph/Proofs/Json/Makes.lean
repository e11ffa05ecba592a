/-
What a reader makes.

Whatever the text, what a reader makes of it has the properties that its parts have: the values in
it are legal, the floats are finite, and nothing nests deeper than the document could.  `Makes` says
so of a reader, with the depth at which it reads, and a record inherits it from its fields, whether
it was read from an object or from a list and whether its fields were there or left out.
-/
import FlowGraph.Proofs.Decimal.Integers
import FlowGraph.Proofs.Json.Legal

namespace FlowGraph.Json

variable {α β : Type}

/-- What the reader makes at some depth has the property. -/
def Reader.Makes (r : Reader α) (P : Nat → α → Prop) : Prop :=
  ∀ (src : Source) (d : Document) (a : α), d.Sound → r src d = .ok a → P src.depth a

theorem map_ok_iff {ε : Type} {x : Except ε α} {f : α → β} {b : β} :
    x.map f = .ok b ↔ ∃ a, x = .ok a ∧ f a = b := by
  cases x with
  | error e => exact ⟨nofun, nofun⟩
  | ok a =>
      exact ⟨fun h => ⟨a, rfl, Except.ok.inj h⟩,
        fun ⟨_, h, hf⟩ => congrArg Except.ok (Except.ok.inj h ▸ hf)⟩

theorem Document.soundItems_iff {ds : List Document} :
    Document.SoundItems ds ↔ ∀ d ∈ ds, d.Sound := by
  induction ds with
  | nil => simp [SoundItems]
  | cons d rest ih => simp [SoundItems, ih]

theorem Document.sound_lookup {fields : List (String × Document)} {name : String} {d : Document}
    (h : Document.SoundFields fields) (hd : fields.lookup name = some d) : d.Sound := by
  induction fields with
  | nil => cases hd
  | cons e rest ih =>
      rw [List.lookup_cons] at hd
      split at hd
      · obtain rfl := Option.some.inj hd
        exact h.1
      · exact ih h.2 hd

/-- Going deeper leaves one level less. -/
theorem Source.deeper_ok {src inner : Source} (h : src.deeper = .ok inner) :
    src.depth = inner.depth + 1 := by
  obtain ⟨ofText, depth⟩ := src
  cases depth with
  | zero => cases h
  | succ depth =>
      obtain rfl := Except.ok.inj h
      rfl

namespace Reader

variable {r : Reader α} {P : Nat → α → Prop}

theorem Makes.imp {Q : Nat → α → Prop} (h : r.Makes P) (hpq : ∀ {n a}, P n a → Q n a) :
    r.Makes Q :=
  fun src d a hd hread => hpq (h src d a hd hread)

theorem makes_trivial (r : Reader α) : Makes r fun _ _ => True := fun _ _ _ _ _ => trivial

theorem Makes.option (h : r.Makes P) : Makes r.option fun n o => ∀ a ∈ o, P n a := by
  intro src d o hd hread a ha
  rw [Reader.option.eq_def] at hread
  split at hread
  · obtain rfl := Except.ok.inj hread
    cases ha
  · obtain ⟨b, hr, rfl⟩ := map_ok_iff.mp hread
    obtain rfl := Option.some.inj ha
    exact h _ _ _ hd hr

theorem Makes.readAll (h : r.Makes P) {src : Source} :
    ∀ {ds : List Document} {as : List α}, (∀ d ∈ ds, d.Sound) → readAll r src ds = .ok as →
      ∀ a ∈ as, P src.depth a
  | [], _, _, hread => by
      obtain rfl := Except.ok.inj hread
      simp
  | d :: ds, as, hds, hread => by
      obtain ⟨hd, hrest⟩ := List.forall_mem_cons.mp hds
      rw [Reader.readAll] at hread
      split at hread
      · cases hread
      · rename_i hr
        obtain ⟨more, hmore, rfl⟩ := map_ok_iff.mp hread
        exact List.forall_mem_cons.mpr ⟨h _ _ _ hd hr, Makes.readAll h hrest hmore⟩

theorem Makes.list (h : r.Makes P) :
    Makes (list r) fun n as => ∃ m, n = m + 1 ∧ ∀ a ∈ as, P m a := by
  intro src d as hd hread
  rw [Reader.list.eq_def] at hread
  split at hread
  · obtain ⟨inner, hdeeper, hread⟩ := bind_ok_iff.mp hread
    obtain ⟨bs, hall, hread⟩ := bind_ok_iff.mp hread
    split at hread
    · cases hread
    · obtain rfl := Except.ok.inj hread
      exact ⟨_, Source.deeper_ok hdeeper, h.readAll (Document.soundItems_iff.mp hd) hall⟩
  · cases hread

/-- Fields are put in order, whatever they are. -/
theorem makes_table (r : Reader α) : Makes (table r) fun _ as => Entries.Sorted as := by
  intro src d as _ hread
  rw [Reader.table.eq_def] at hread
  split at hread
  · obtain ⟨inner, -, hread⟩ := bind_ok_iff.mp hread
    obtain ⟨es, -, hread⟩ := bind_ok_iff.mp hread
    split at hread
    · cases hread
    · obtain rfl := Except.ok.inj hread
      exact Entries.sorted_ofList es
  · cases hread

end Reader

/-! ### Records -/

namespace Record

/-- What is made of fields, or of items, has the property. -/
structure Makes (R : Record α) (P : Nat → α → Prop) : Prop where
  fields : ∀ {src : Source} {fields : List (String × Document)} {a : α},
    Document.SoundFields fields → R.ofFields src fields = .ok a → P src.depth a
  items : ∀ {src : Source} {expected : String} {items left : Items} {a : α},
    (∀ d ∈ items.rest, d.Sound) → R.ofItems src expected items = .ok (a, left) →
      P src.depth a ∧ ∀ d ∈ left.rest, d.Sound

theorem makes_pure {P : Nat → α → Prop} {a : α} (h : ∀ n, P n a) :
    Makes (Pure.pure a : Record α) P where
  fields _ hread := by
    obtain rfl := Except.ok.inj hread
    exact h _
  items hitems hread := by
    obtain ⟨rfl, rfl⟩ := Prod.mk.inj (Except.ok.inj hread)
    exact ⟨h _, hitems⟩

theorem Makes.seq {f : Record (α → β)} {x : Record α} {F : Nat → (α → β) → Prop}
    {P : Nat → α → Prop} {Q : Nat → β → Prop} (hf : f.Makes F) (hx : x.Makes P)
    (h : ∀ {n g a}, F n g → P n a → Q n (g a)) : Makes (f <*> x) Q where
  fields hfields hread := by
    obtain ⟨g, hg, hread⟩ := bind_ok_iff.mp hread
    obtain ⟨a, ha, hread⟩ := bind_ok_iff.mp hread
    obtain rfl := Except.ok.inj hread
    exact h (hf.fields hfields hg) (hx.fields hfields ha)
  items hitems hread := by
    obtain ⟨⟨g, more⟩, hg, hread⟩ := bind_ok_iff.mp hread
    obtain ⟨⟨a, rest⟩, ha, hread⟩ := bind_ok_iff.mp hread
    obtain ⟨rfl, rfl⟩ := Prod.mk.inj (Except.ok.inj hread)
    obtain ⟨hF, hmore⟩ := hf.items hitems hg
    obtain ⟨hP, hrest⟩ := hx.items hmore ha
    exact ⟨h hF hP, hrest⟩

theorem Makes.map {x : Record α} {g : α → β} {P : Nat → α → Prop} {Q : Nat → β → Prop}
    (hx : x.Makes P) (h : ∀ {n a}, P n a → Q n (g a)) : Makes (g <$> x) Q :=
  Makes.seq (makes_pure (fun _ => rfl) : Makes (Pure.pure g) fun _ f => f = g) hx
    fun hf ha => hf ▸ h ha

/-- A field, with its default. -/
theorem makes_field {name : String} {r : Reader α} {absent : Absent α} {P : Nat → α → Prop}
    (h : r.Makes P) (habsent : ∀ n a, absent = .inObject a ∨ absent = .anywhere a → P n a) :
    Makes (field name r absent) P where
  fields {src fields a} hfields hread := by
    simp only [field] at hread
    cases hlookup : fields.lookup name with
    | some d =>
        simp only [hlookup] at hread
        exact h _ _ _ (Document.sound_lookup hfields hlookup) hread
    | none =>
        simp only [hlookup] at hread
        cases absent with
        | required => cases hread
        | inObject b =>
            obtain rfl := Except.ok.inj hread
            exact habsent _ _ (Or.inl rfl)
        | anywhere b =>
            obtain rfl := Except.ok.inj hread
            exact habsent _ _ (Or.inr rfl)
  items {src expected items left a} hitems hread := by
    obtain ⟨rest, stop, index⟩ := items
    cases rest with
    | cons d rest =>
        obtain ⟨b, hr, heq⟩ := map_ok_iff.mp hread
        obtain ⟨rfl, rfl⟩ := Prod.mk.inj heq
        obtain ⟨hd, hrest⟩ := List.forall_mem_cons.mp hitems
        exact ⟨h _ _ _ hd hr, hrest⟩
    | nil =>
        cases stop with
        | some f => cases hread
        | none =>
            cases absent with
            | required => cases hread
            | inObject b => cases hread
            | anywhere b =>
                obtain ⟨rfl, rfl⟩ := Prod.mk.inj (Except.ok.inj hread)
                exact ⟨habsent _ _ (Or.inr rfl), hitems⟩

theorem makes_withDefault {r : Reader α} {P : Nat → α → Prop} (name : String) {a : α}
    (h : r.Makes P) (ha : ∀ n, P n a) : Makes (withDefault name r a) P :=
  makes_field h fun n b heq => by
    rcases heq with heq | heq
    · cases heq
    · obtain rfl := Absent.anywhere.inj heq
      exact ha n

/-- **What a record makes is made of what it says, one level deeper.** -/
theorem Makes.reader {R : Record α} {P : Nat → α → Prop} (h : R.Makes P) (name : String) :
    Reader.Makes (R.reader name) fun n a => ∃ m, n = m + 1 ∧ P m a := by
  intro src d a hd hread
  rw [Record.reader.eq_def] at hread
  split at hread
  · obtain ⟨inner, hdeeper, hread⟩ := bind_ok_iff.mp hread
    obtain ⟨-, -, hread⟩ := bind_ok_iff.mp hread
    split at hread
    · cases hread
    · exact ⟨_, Source.deeper_ok hdeeper, h.fields hd hread⟩
  · rename_i items stop
    obtain ⟨inner, hdeeper, hread⟩ := bind_ok_iff.mp hread
    obtain ⟨⟨b, left⟩, hitems, hread⟩ := bind_ok_iff.mp hread
    have hsound : ∀ d ∈ (Items.mk items stop 0).rest, d.Sound := Document.soundItems_iff.mp hd
    have hmade := (h.items hsound hitems).1
    refine ⟨_, Source.deeper_ok hdeeper, ?_⟩
    dsimp only at hread
    split at hread
    · split at hread <;> cases hread
    · split at hread
      · cases hread
      · obtain rfl := Except.ok.inj hread
        exact hmade
  · cases hread

end Record

/-! ### Texts -/

theorem Reader.Makes.readText {r : Reader α} {P : Nat → α → Prop} (h : r.Makes P) {s : String}
    {a : α} (hread : readText r s = .ok a) : P nestingLimit a := by
  have hsound := Document.ofText_sound s
  rw [Json.readText] at hread
  generalize Document.ofText s = read at hread hsound
  obtain ⟨d, more⟩ := read
  dsimp only at hread hsound
  cases hr : r Source.text d with
  | error e => rw [hr] at hread; cases hread
  | ok b =>
      rw [hr] at hread
      cases more with
      | true => cases hread
      | false =>
          obtain rfl := Except.ok.inj hread
          exact h _ _ _ hsound hr

end FlowGraph.Json
