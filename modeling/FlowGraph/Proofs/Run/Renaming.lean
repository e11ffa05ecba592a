/-
Fields that are renamed.

A transformer without a script goes through its map in the order of the sources and puts the value
of each under its target.  The first source that the input lacks ends this, and since the sources
are in order it is the least one that is missing.  Of several sources with one target the last one
counts, which is the greatest.

A map that repeats no target therefore loses no value, and the map the other way round brings all of
them back.  It makes no difference if targets are sources as well, as where two fields change their
names: nothing is read from what has been made so far.
-/
import Mathlib.Data.List.Nodup
import FlowGraph.Proofs.Entries
import FlowGraph.Proofs.Json.Makes
import FlowGraph.Proofs.Text.Order
import FlowGraph.Run.Task
import FlowGraph.Store.Memory
import FlowGraph.Web.Offline
import Mathlib.Data.List.ProdSigma

namespace FlowGraph

namespace Entries

variable {α : Type} {es before after : Entries α} {value : α} {f : Entries String}
  {names : List String} {key source target : String}

/-- The entries under some keys. -/
def restrict (names : List String) (es : Entries α) : Entries α := es.filter fun e => e.1 ∈ names

/-- The keys under their values. -/
def inverse (f : Entries String) : Entries String := ofList (f.map Prod.swap)

theorem find?_restrict :
    find? key (restrict names es) = if key ∈ names then find? key es else none := by
  induction es with
  | nil => simp [restrict]
  | cons e rest ih =>
      obtain ⟨k, v⟩ := e
      rw [restrict] at ih ⊢
      by_cases hk : k ∈ names
      · rw [List.filter_cons_of_pos (by simpa using hk), find?_cons, find?_cons, ih]
        by_cases heq : k = key
        · rw [if_pos heq, if_pos heq, if_pos (heq ▸ hk)]
        · rw [if_neg heq, if_neg heq]
      · rw [List.filter_cons_of_neg (by simpa using hk), find?_cons, ih]
        by_cases heq : k = key
        · rw [if_neg (heq ▸ hk), if_neg (heq ▸ hk)]
        · rw [if_neg heq]

theorem Sorted.restrict (h : Sorted es) : Sorted (Entries.restrict names es) :=
  List.Pairwise.sublist (List.filter_sublist.map Prod.fst) h

theorem sorted_inverse (f : Entries String) : Sorted (inverse f) := sorted_ofList _

theorem keys_split : keys (before ++ (key, value) :: after) = keys before ++ key :: keys after := by
  rw [keys, List.map_append, List.map_cons]
  rfl

/-- A key of a table in order stands between those before it and those behind it. -/
theorem Sorted.split (h : Sorted (before ++ (key, value) :: after)) :
    (∀ other ∈ keys before, other < key) ∧ ∀ other ∈ keys after, key < other := by
  rw [Sorted, keys_split] at h
  obtain ⟨-, htail, hacross⟩ := List.pairwise_append.mp h
  exact ⟨fun other hother => hacross other hother key (List.mem_cons_self ..),
    (List.pairwise_cons.mp htail).1⟩

/-- Where no value repeats, every entry is turned round. -/
theorem mem_inverse (h : (values f).Nodup) : (target, source) ∈ inverse f ↔ (source, target) ∈ f := by
  have hkeys : keys (f.map Prod.swap) = values f := by
    rw [keys, List.map_map]
    rfl
  have hnodup : (keys (f.map Prod.swap)).Nodup := hkeys ▸ h
  have hmem : (target, source) ∈ f.map Prod.swap ↔ (source, target) ∈ f :=
    List.mem_map_swap source target f
  rw [← (sorted_inverse f).find?_iff_mem, inverse, find?_ofList hnodup, ← hmem]
  exact ⟨mem_of_find?, find?_of_mem hnodup⟩

theorem mem_keys_inverse (h : (values f).Nodup) : target ∈ keys (inverse f) ↔ target ∈ values f := by
  simp [keys, values, mem_inverse h]

theorem mem_values_inverse (h : (values f).Nodup) : source ∈ values (inverse f) ↔ source ∈ keys f := by
  simp [keys, values, mem_inverse h]

/-- Where no value repeats, it stands under one key. -/
theorem key_unique (h : (values f).Nodup) {other : String} (hmem : (source, target) ∈ f)
    (hother : (other, target) ∈ f) : other = source :=
  congrArg Prod.fst (List.inj_on_of_nodup_map h hother hmem rfl)

/-- A value that occurs has a last place. -/
theorem exists_last (h : target ∈ values f) :
    ∃ before source after, f = before ++ (source, target) :: after ∧ target ∉ values after := by
  induction f with
  | nil => simp [values] at h
  | cons e rest ih =>
      by_cases hrest : target ∈ values rest
      · obtain ⟨before, source, after, rfl, hafter⟩ := ih hrest
        exact ⟨e :: before, source, after, rfl, hafter⟩
      · obtain ⟨source, t⟩ := e
        obtain rfl : target = t := (List.mem_cons.mp h).resolve_right hrest
        exact ⟨[], source, rest, rfl, hrest⟩

end Entries

/-! ### What the map asks for -/

namespace Renaming

variable {f before after : Entries String} {fields out : Entries Json} {source target : String}

/-- The fields have all the sources. -/
def Complete (f : Entries String) (fields : Entries Json) : Prop :=
  ∀ source ∈ Entries.keys f, Entries.contains source fields = true

theorem complete_nil : Complete [] fields := fun _ h => absurd h List.not_mem_nil

theorem complete_cons_iff {e : String × String} :
    Complete (e :: f) fields ↔ Entries.contains e.1 fields = true ∧ Complete f fields := by
  simp only [Complete, Entries.keys, List.map_cons, List.forall_mem_cons]

theorem complete_append_iff :
    Complete (before ++ after) fields ↔ Complete before fields ∧ Complete after fields := by
  simp only [Complete, Entries.keys, List.map_append, List.forall_mem_append]

/-- Of the sources that the fields lack, this is the least in the order of bytes. -/
structure FirstMissing (f : Entries String) (fields : Entries Json) (source : String) : Prop where
  mem : source ∈ Entries.keys f
  missing : Entries.contains source fields = false
  least : ∀ other ∈ Entries.keys f, Entries.contains other fields = false → other ≠ source →
    Text.bytes source < Text.bytes other

/-- Of the sources with the target, this is the greatest in the order of bytes. -/
structure LastSource (f : Entries String) (target source : String) : Prop where
  mem : (source, target) ∈ f
  greatest : ∀ other, (other, target) ∈ f → other ≠ source → Text.bytes other < Text.bytes source

/-- The first of the missing sources in a map that is in order. -/
theorem firstMissing_of_split (hf : Entries.Sorted (before ++ (source, target) :: after))
    (hbefore : Complete before fields) (hmissing : Entries.contains source fields = false) :
    FirstMissing (before ++ (source, target) :: after) fields source where
  mem := by
    rw [Entries.keys_split]
    exact List.mem_append_right _ (List.mem_cons_self ..)
  missing := hmissing
  least other hother hlacks hne := by
    rw [Entries.keys_split] at hother
    rcases List.mem_append.mp hother with hin | hin
    · rw [hbefore other hin] at hlacks
      exact absurd hlacks (by decide)
    · have hin : other ∈ Entries.keys after := (List.mem_cons.mp hin).resolve_left hne
      exact Text.bytes_lt_bytes.mpr (hf.split.2 other hin)

theorem lastSource_of_split (hf : Entries.Sorted (before ++ (source, target) :: after))
    (hafter : target ∉ Entries.values after) :
    LastSource (before ++ (source, target) :: after) target source where
  mem := List.mem_append_right _ (List.mem_cons_self ..)
  greatest other hother hne := by
    rcases List.mem_append.mp hother with hin | hin
    · exact Text.bytes_lt_bytes.mpr (hf.split.1 other (List.mem_map_of_mem hin))
    · rcases List.mem_cons.mp hin with heq | hin
      · exact absurd (congrArg Prod.fst heq) hne
      · exact absurd (List.mem_map_of_mem hin) hafter

/-! ### Going through the map -/

/-- Put the value of one source under its target. -/
def step (fields out : Entries Json) (e : String × String) : Except String (Entries Json) :=
  match Entries.find? e.1 fields with
  | some v => .ok (Entries.insert e.2 v out)
  | none => .error ("Key " ++ e.1 ++ " not found in params")

theorem renameFields_obj (f : Entries String) (fields : Entries Json) :
    Task.renameFields f (.obj fields) = (f.foldlM (step fields) []).map Json.obj := by
  rw [Task.renameFields]
  show (f.foldlM (step fields) [] >>= _) = _
  cases f.foldlM (step fields) [] <;> rfl

/-- The values of the sources, under their targets. -/
def moved (f : Entries String) (fields : Entries Json) : List (String × Json) :=
  f.filterMap fun e => (Entries.find? e.1 fields).map fun v => (e.2, v)

theorem moved_cons {e : String × String} {v : Json} (hv : Entries.find? e.1 fields = some v) :
    moved (e :: f) fields = (e.2, v) :: moved f fields := by
  rw [moved, List.filterMap_cons, hv]
  rfl

theorem foldlM_step (h : Complete f fields) (out : Entries Json) :
    f.foldlM (step fields) out = .ok (Entries.union out (moved f fields)) := by
  induction f generalizing out with
  | nil => rfl
  | cons e rest ih =>
      obtain ⟨hc, hrest⟩ := complete_cons_iff.mp h
      obtain ⟨v, hv⟩ := Entries.contains_iff.mp hc
      have hstep : step fields out e = .ok (Entries.insert e.2 v out) := by rw [step, hv]
      rw [List.foldlM_cons, hstep, moved_cons hv]
      exact ih hrest _

theorem keys_moved (h : Complete f fields) :
    Entries.keys (moved f fields) = Entries.values f := by
  induction f with
  | nil => rfl
  | cons e rest ih =>
      obtain ⟨hc, hrest⟩ := complete_cons_iff.mp h
      obtain ⟨v, hv⟩ := Entries.contains_iff.mp hc
      rw [moved_cons hv]
      exact congrArg (e.2 :: ·) (ih hrest)

/-- A source that is missing has others before it that are not. -/
theorem exists_missing (h : ¬ Complete f fields) :
    ∃ before source target after, f = before ++ (source, target) :: after ∧
      Complete before fields ∧ Entries.contains source fields = false := by
  induction f with
  | nil => exact absurd complete_nil h
  | cons e rest ih =>
      obtain ⟨source, target⟩ := e
      cases hc : Entries.contains source fields with
      | false => exact ⟨[], source, target, rest, rfl, complete_nil, hc⟩
      | true =>
          have hrest : ¬ Complete rest fields := fun hall => h (complete_cons_iff.mpr ⟨hc, hall⟩)
          obtain ⟨before, source', target', after, rfl, hbefore, hmissing⟩ := ih hrest
          exact ⟨(source, target) :: before, source', target', after, rfl,
            complete_cons_iff.mpr ⟨hc, hbefore⟩, hmissing⟩

/-- **The first source that is missing is named.** -/
theorem renameFields_missing (hf : f.Sorted) (h : ¬ Complete f fields) :
    ∃ source, FirstMissing f fields source ∧
      Task.renameFields f (.obj fields) = .error ("Key " ++ source ++ " not found in params") := by
  obtain ⟨before, source, target, after, rfl, hbefore, hmissing⟩ := exists_missing h
  refine ⟨source, firstMissing_of_split hf hbefore hmissing, ?_⟩
  have hstep : ∀ out, step fields out (source, target)
      = .error ("Key " ++ source ++ " not found in params") := fun out => by
    rw [step, Entries.not_contains_iff.mp hmissing]
  rw [renameFields_obj, List.foldlM_append, foldlM_step hbefore]
  show (List.foldlM (step fields) _ ((source, target) :: after)).map Json.obj = _
  rw [List.foldlM_cons, hstep]
  rfl

/-- What an object is renamed to: it has the targets of the map, and under each the value of the
last source. -/
structure Renamed (f : Entries String) (fields out : Entries Json) : Prop where
  sorted : Entries.Sorted out
  targets : ∀ target, target ∈ Entries.keys out ↔ target ∈ Entries.values f
  moved : ∀ target ∈ Entries.values f, ∃ source v, LastSource f target source ∧
    Entries.find? source fields = some v ∧ Entries.find? target out = some v

/-- **Every source that counts is moved to its target.** -/
theorem renameFields_complete (hf : f.Sorted) (h : Complete f fields) :
    ∃ out, Task.renameFields f (.obj fields) = .ok (.obj out) ∧ Renamed f fields out := by
  refine ⟨Entries.ofList (moved f fields), ?_, Entries.sorted_ofList _, fun target => ?_, ?_⟩
  · rw [renameFields_obj, foldlM_step h]
    rfl
  · have hkeys : target ∈ Entries.keys (Entries.ofList (moved f fields))
        ↔ target ∈ Entries.keys (moved f fields) ∨ target ∈ Entries.keys ([] : Entries Json) :=
      Entries.mem_keys_union
    rw [hkeys, keys_moved h]
    simp [Entries.keys]
  · intro target htarget
    obtain ⟨before, source, after, rfl, hafter⟩ := Entries.exists_last htarget
    obtain ⟨hc, hcomplete⟩ := complete_cons_iff.mp (complete_append_iff.mp h).2
    obtain ⟨v, hv⟩ := Entries.contains_iff.mp hc
    refine ⟨source, v, lastSource_of_split hf hafter, hv, ?_⟩
    have hmoved : moved (before ++ (source, target) :: after) fields
        = moved before fields ++ (target, v) :: moved after fields := by
      rw [moved, List.filterMap_append, ← moved_cons hv]
      rfl
    have hlater : target ∉ Entries.keys (moved after fields) := by rwa [keys_moved hcomplete]
    have hfold : Entries.ofList (moved (before ++ (source, target) :: after) fields)
        = Entries.union (Entries.insert target v (Entries.ofList (moved before fields)))
            (moved after fields) := by
      rw [hmoved, Entries.ofList, List.foldl_append]
      rfl
    rw [hfold, Entries.find?_union_of_notMem hlater, Entries.find?_insert_self]

/-- The map the other way round brings back what the map has moved. -/
theorem Renamed.inverse (h : Renamed f fields out) (hdistinct : (Entries.values f).Nodup)
    (hfields : fields.Sorted) :
    Task.renameFields f.inverse (.obj out) = .ok (.obj (fields.restrict (Entries.keys f))) := by
  have hback : Complete f.inverse out := fun target htarget =>
    Entries.contains_iff_mem_keys.mpr
      ((h.targets target).mpr ((Entries.mem_keys_inverse hdistinct).mp htarget))
  obtain ⟨out', hrun, hout'⟩ := renameFields_complete f.sorted_inverse hback
  rw [hrun]
  refine congrArg (Except.ok ∘ Json.obj) (hout'.sorted.ext hfields.restrict fun key => ?_)
  rw [Entries.find?_restrict]
  by_cases hkey : key ∈ Entries.keys f
  · rw [if_pos hkey]
    obtain ⟨target, v, hlast, hv, hfound⟩ :=
      hout'.moved key ((Entries.mem_values_inverse hdistinct).mpr hkey)
    have htarget : (key, target) ∈ f := (Entries.mem_inverse hdistinct).mp hlast.mem
    obtain ⟨source, w, hsource, hw, hmoved⟩ := h.moved target (List.mem_map_of_mem htarget)
    obtain rfl : source = key := Entries.key_unique hdistinct htarget hsource.mem
    rw [hfound, hw, ← hv, hmoved]
  · rw [if_neg hkey]
    refine Entries.find?_of_notMem_keys fun hin => hkey ?_
    exact (Entries.mem_values_inverse hdistinct).mp ((hout'.targets key).mp hin)

theorem renameFields_misshaped {params : Json} (h : ∀ fields, params ≠ .obj fields) :
    Task.renameFields f params = .error ("transformer expects an object input, got " ++ params.kind) := by
  cases params with
  | obj fields => exact absurd rfl (h fields)
  | _ => rfl

theorem renameFields_ok_iff (hf : f.Sorted) {params : Json} :
    (∃ v, Task.renameFields f params = .ok v) ↔ ∃ fields, params = .obj fields ∧ Complete f fields := by
  constructor
  · rintro ⟨v, hv⟩
    by_cases hobj : ∃ fields, params = .obj fields
    · obtain ⟨fields, rfl⟩ := hobj
      refine ⟨fields, rfl, ?_⟩
      by_contra hnot
      obtain ⟨source, -, hrun⟩ := renameFields_missing hf hnot
      exact nomatch hrun.symm.trans hv
    · have hrun := renameFields_misshaped (f := f) fun fields heq => hobj ⟨fields, heq⟩
      exact nomatch hrun.symm.trans hv
  · rintro ⟨fields, rfl, h⟩
    obtain ⟨out, hrun, -⟩ := renameFields_complete hf h
    exact ⟨_, hrun⟩

end Renaming

/-! ### Transformers -/

section

open Json Reader Record

/-- The map of a transformer is in order, whatever it was read from. -/
theorem TransformerConfig.makes_sorted :
    TransformerConfig.reader.Makes fun _ c => c.fieldMap.Sorted := by
  have hfields : Record.Makes
      (TransformerConfig.mk <$> withDefault "useJs" boolean false
        <*> withDefault "js" string.option none <*> withDefault "fieldMap" (table string) [])
      fun _ c => c.fieldMap.Sorted := by
    refine Record.Makes.seq (F := fun _ g => ∃ useScript script, g = TransformerConfig.mk useScript script)
      (Record.Makes.seq (F := fun _ g => ∃ useScript, g = TransformerConfig.mk useScript)
        (Record.Makes.map (makes_withDefault "useJs" (makes_trivial boolean) ?_) ?_)
        (makes_withDefault "js" (makes_trivial string.option) ?_) ?_)
      (makes_withDefault "fieldMap" (makes_table string) ?_) ?_
    · exact fun _ => trivial
    · exact fun _ => ⟨_, rfl⟩
    · exact fun _ => trivial
    · rintro _ _ script ⟨useScript, rfl⟩ -
      exact ⟨useScript, script, rfl⟩
    · exact fun _ => .nil
    · rintro _ _ f ⟨useScript, script, rfl⟩ hf
      exact hf
  exact Reader.Makes.imp (hfields.reader "TransformerConfig") fun ⟨_, _, h⟩ => h

end

namespace Task

variable {δ χ : Type} [Store.Database δ] [Client χ] {f : Entries String} {script : Option String}
  {id : String} {next : Option String} {params : Json} {ctx : Context δ χ}

/-- A transformer without a script renames, and changes nothing in the state. -/
theorem run_renaming :
    (transformer ⟨false, script, f⟩).run id next params ctx
      = (match renameFields f params with
          | .ok v => .success next v
          | .error text => .failure text, ctx) := by
  show runTransformer ⟨false, script, f⟩ next params ctx = _
  rw [runTransformer, if_neg Bool.false_ne_true]
  cases renameFields f params <;> rfl

theorem run_renaming_ok_iff {v : Json} :
    (transformer ⟨false, script, f⟩).run id next params ctx = (.success next v, ctx)
      ↔ renameFields f params = .ok v := by
  rw [run_renaming]
  show ((_, ctx) : Output × Context δ χ) = (_, ctx) ↔ _
  cases renameFields f params <;> simp [Output.success, Output.failure]

theorem run_renaming_error_iff {text : String} :
    (transformer ⟨false, script, f⟩).run id next params ctx = (.failure text, ctx)
      ↔ renameFields f params = .error text := by
  rw [run_renaming]
  show ((_, ctx) : Output × Context δ χ) = (_, ctx) ↔ _
  cases renameFields f params <;> simp [Output.success, Output.failure]

end Task

/-- **A transformer without a script succeeds exactly on objects that have every source of its map.**
Else it names the first source that is missing, or the kind of its input.  What it makes has exactly
the targets of the map, and under each the value of the last of its sources.  If no target repeats,
the map the other way round makes of that the fields that the map names, as they were.  First and
last are meant in the order of the bytes; the map itself is kept in that order. -/
theorem fields_move_to_targets {δ χ : Type} [Store.Database δ] [Client χ] {f : Entries String}
    (hf : f.Sorted) (script : Option String) (id : String) (next : Option String)
    (ctx : Context δ χ) :
    let run := fun params => (Task.transformer ⟨false, script, f⟩).run id next params ctx
    (∀ params, (∃ v, run params = (.success next v, ctx)) ↔
      ∃ fields, params = .obj fields ∧ Renaming.Complete f fields) ∧
    (∀ fields, ¬ Renaming.Complete f fields → ∃ source, Renaming.FirstMissing f fields source ∧
      run (.obj fields) = (.failure ("Key " ++ source ++ " not found in params"), ctx)) ∧
    (∀ params, (∀ fields, params ≠ .obj fields) →
      run params = (.failure ("transformer expects an object input, got " ++ params.kind), ctx)) ∧
    ∀ fields, Renaming.Complete f fields →
      ∃ out, run (.obj fields) = (.success next (.obj out), ctx) ∧ Renaming.Renamed f fields out ∧
        ((Entries.values f).Nodup → fields.Sorted →
          ∀ (script' : Option String) (id' : String) (next' : Option String) (ctx' : Context δ χ),
            (Task.transformer ⟨false, script', f.inverse⟩).run id' next' (.obj out) ctx'
              = (.success next' (.obj (fields.restrict (Entries.keys f))), ctx')) := by
  intro run
  simp only [run, Task.run_renaming_ok_iff, Task.run_renaming_error_iff]
  refine ⟨fun params => Renaming.renameFields_ok_iff hf, fun fields => ?_, fun params => ?_, ?_⟩
  · exact Renaming.renameFields_missing hf
  · exact Renaming.renameFields_misshaped
  · intro fields hcomplete
    obtain ⟨out, hrun, hout⟩ := Renaming.renameFields_complete hf hcomplete
    exact ⟨out, hrun, hout, fun hdistinct hfields _ _ _ _ => hout.inverse hdistinct hfields⟩

/-- A map that swaps two fields and renames a third. -/
def Renaming.swapping : Entries String := [("a", "b"), ("b", "a"), ("c", "d")]

/-- An object with these fields and another one. -/
def Renaming.fields : Entries Json :=
  [("a", Json.nat 1), ("b", .str "two"), ("c", .arr []), ("z", .null)]

/-- A context for transformers, which look at nothing in it. -/
def Context.blank : Context Store.Memory Offline := { scripts := .standard {} }

theorem fields_move_to_targets_swapping :
    Renaming.swapping.Sorted ∧ Renaming.Complete Renaming.swapping Renaming.fields ∧
      (Entries.values Renaming.swapping).Nodup ∧ Renaming.fields.Sorted ∧
      ∃ out, (Task.transformer ⟨false, none, Renaming.swapping⟩).run "there" none
            (.obj Renaming.fields) Context.blank
          = (.success none (.obj out), .blank) ∧
        Renaming.Renamed Renaming.swapping Renaming.fields out ∧
        (Task.transformer ⟨false, none, Renaming.swapping.inverse⟩).run "back" none (.obj out)
            Context.blank
          = (.success none (.obj [("a", Json.nat 1), ("b", .str "two"), ("c", .arr [])]), .blank) := by
  have hsorted : Renaming.swapping.Sorted := by unfold Entries.Sorted; decide
  have hfields : Renaming.fields.Sorted := by unfold Entries.Sorted; decide
  have hcomplete : Renaming.Complete Renaming.swapping Renaming.fields := by
    unfold Renaming.Complete
    decide
  have hdistinct : (Entries.values Renaming.swapping).Nodup := by decide
  obtain ⟨-, -, -, hmoves⟩ := fields_move_to_targets hsorted none "there" none Context.blank
  obtain ⟨out, hthere, hout, hback⟩ := hmoves _ hcomplete
  exact ⟨hsorted, hcomplete, hdistinct, hfields, out, hthere, hout,
    hback hdistinct hfields none "back" none .blank⟩

end FlowGraph
