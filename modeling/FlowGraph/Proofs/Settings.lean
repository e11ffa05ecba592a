/-
What a block is told, and what becomes of it.

Every kind has a type of settings, a reader for them and a check of them; an entrypoint
and a transaction are told nothing, so nothing about them can be rejected.  The compiler
goes through the kinds one by one.  `block_eq` says that what it does is the same for all
of them: read the settings by the reader of the kind, check them by its check, and put
them into a block.  After that no proof looks at a single kind to know whether a block
is accepted.

A block keeps its settings, and `Block.settings` gives them back with the type that its
kind calls for.  So "the settings of the block are what its definition says" is one
equation between a reading and `Block.settings`.
-/
import FlowGraph.Compile.Program

namespace FlowGraph

namespace Kind

/-- What the blocks of a kind can be told. -/
def Settings : Kind → Type
  | entrypoint | transaction => Unit
  | code => CodeConfig
  | branch => BranchConfig
  | count => CountConfig
  | each => EachConfig
  | setVar => SetVarConfig
  | getVar => GetVarConfig
  | transformer => TransformerConfig
  | arrayOps => ListConfig
  | dbGetAll | dbGetSingle | dbInsert | dbInsertBulk | dbUpdate | dbDelete | dbRaw => StoreConfig
  | httpRequest => CallConfig
  | getHeader | getCookie | getParam | getBody => ReadConfig
  | setHeader => HeaderConfig
  | setCookie => CookieConfig
  | response => ResponseConfig
  | logger => LoggerConfig
  | interceptor => InterceptorConfig

/-- How the settings of a kind are read.  A kind without any takes every value. -/
def reads : (k : Kind) → Json.Reader k.Settings
  | entrypoint | transaction => fun _ _ => .ok ()
  | code => CodeConfig.reader
  | branch => BranchConfig.reader
  | count => CountConfig.reader
  | each => EachConfig.reader
  | setVar => SetVarConfig.reader
  | getVar => GetVarConfig.reader
  | transformer => TransformerConfig.reader
  | arrayOps => ListConfig.reader
  | dbGetAll | dbGetSingle | dbInsert | dbInsertBulk | dbUpdate | dbDelete | dbRaw =>
    StoreConfig.reader
  | httpRequest => CallConfig.reader
  | getHeader | getCookie | getParam | getBody => ReadConfig.reader
  | setHeader => HeaderConfig.reader
  | setCookie => CookieConfig.reader
  | response => ResponseConfig.reader
  | logger => LoggerConfig.reader
  | interceptor => InterceptorConfig.reader

/-- How the settings of a kind are checked. -/
def checks : (k : Kind) → k.Settings → Check
  | entrypoint | transaction => fun _ => .ok ()
  | code => CodeConfig.check
  | branch => BranchConfig.check
  | count => CountConfig.check
  | each => EachConfig.check
  | setVar => SetVarConfig.check
  | getVar => GetVarConfig.check
  | transformer => TransformerConfig.check
  | arrayOps => ListConfig.check
  | dbGetAll => StoreConfig.check .getAll
  | dbGetSingle => StoreConfig.check .getSingle
  | dbInsert => StoreConfig.check .insert
  | dbInsertBulk => StoreConfig.check .insertBulk
  | dbUpdate => StoreConfig.check .update
  | dbDelete => StoreConfig.check .delete
  | dbRaw => StoreConfig.check .raw
  | httpRequest => CallConfig.check
  | getHeader => ReadConfig.check .header
  | getCookie => ReadConfig.check .cookie
  | getParam => ReadConfig.check .param
  | getBody => ReadConfig.check .body
  | setHeader => HeaderConfig.check
  | setCookie => CookieConfig.check
  | response => ResponseConfig.check
  | logger => fun _ => .ok ()
  | interceptor => fun _ => .ok ()

end Kind

/-! ### Definitions that are accepted -/

namespace BlockDef

/-- What a block is told: without any settings, an object without fields. -/
def told (b : BlockDef) : Json := if b.data.isNull then .obj [] else b.data

/-- The settings of a block can be read and, if that is asked for, pass the check. -/
def Accepted (validate : Bool) (b : BlockDef) : Prop :=
  ∃ s, Json.readValue b.kind.reads b.told = .ok s ∧ (validate = true → b.kind.checks s = .ok ())

/-- The settings of a block are turned down, for a reason. -/
inductive Rejected (validate : Bool) (b : BlockDef) : String → Prop
  | unreadable {m : Json.Mismatch} (h : Json.readValue b.kind.reads b.told = .error m) :
      Rejected validate b m.message
  | unfit {s : b.kind.Settings} {text : String} (hv : validate = true)
      (h : Json.readValue b.kind.reads b.told = .ok s) (hc : b.kind.checks s = .error text) :
      Rejected validate b text

theorem Rejected.not_accepted {validate : Bool} {b : BlockDef} {text : String}
    (h : b.Rejected validate text) : ¬ b.Accepted validate := by
  rintro ⟨s, hs, hcheck⟩
  cases h with
  | unreadable hm => simp [hs] at hm
  | unfit hv hr hc =>
      rw [hs] at hr
      simp only [Except.ok.injEq] at hr
      rw [← hr, hcheck hv] at hc
      simp at hc

end BlockDef

/-! ### Blocks from settings -/

namespace Block

/-- The block of a kind with its settings, where `target` says where its slots lead. -/
def ofSettings (id : String) (target : String → Option String)
    (body : Option (String × BlockMap)) : (k : Kind) → k.Settings → Block
  | .entrypoint, _ => .task id (target Slot.source) .entrypoint
  | .code, s => .task id (target Slot.source) (.code s)
  | .branch, s => .branch id s (target Slot.success) (target Slot.failure)
  | .count, s => .nested id (target Slot.source) (.count s) body
  | .each, s => .nested id (target Slot.source) (.each s) body
  | .transaction, _ => .nested id (target Slot.source) .transaction body
  | .setVar, s => .task id (target Slot.source) (.setVar s)
  | .getVar, s => .task id (target Slot.source) (.getVar s)
  | .transformer, s => .task id (target Slot.source) (.transformer s)
  | .arrayOps, s => .task id (target Slot.source) (.list s)
  | .dbGetAll, s => .task id (target Slot.source) (.store .getAll s)
  | .dbGetSingle, s => .task id (target Slot.source) (.store .getSingle s)
  | .dbInsert, s => .task id (target Slot.source) (.store .insert s)
  | .dbInsertBulk, s => .task id (target Slot.source) (.store .insertBulk s)
  | .dbUpdate, s => .task id (target Slot.source) (.store .update s)
  | .dbDelete, s => .task id (target Slot.source) (.store .delete s)
  | .dbRaw, s => .task id (target Slot.source) (.store .raw s)
  | .httpRequest, s => .task id (target Slot.source) (.call s)
  | .getHeader, s => .task id (target Slot.source) (.read .header s)
  | .getCookie, s => .task id (target Slot.source) (.read .cookie s)
  | .getParam, s => .task id (target Slot.source) (.read .param s)
  | .getBody, s => .task id (target Slot.source) (.read .body s)
  | .setHeader, s => .task id (target Slot.source) (.setHeader s)
  | .setCookie, s => .task id (target Slot.source) (.setCookie s)
  | .response, s => .task id (target Slot.source) (.response s)
  | .logger, s => .task id (target Slot.source) (.logger s)
  | .interceptor, s => .task id (target Slot.source) (.interceptor s)

end Block

/-- What a task was told. -/
def Task.settings : (t : Task) → t.kind.Settings
  | .entrypoint => ()
  | .code c => c
  | .setVar c => c
  | .getVar c => c
  | .transformer c => c
  | .list c => c
  | .store .getAll c | .store .getSingle c | .store .insert c | .store .insertBulk c
  | .store .update c | .store .delete c | .store .raw c => c
  | .call c => c
  | .read .header c | .read .cookie c | .read .param c | .read .body c => c
  | .setHeader c => c
  | .setCookie c => c
  | .response c => c
  | .logger c => c
  | .interceptor c => c

/-- What a loop or a transaction was told. -/
def Frame.settings : (f : Frame) → f.kind.Settings
  | .count c => c
  | .each c => c
  | .transaction => ()

namespace Block

/-- What a block was told. -/
def settings : (b : Block) → b.kind.Settings
  | .task _ _ t => t.settings
  | .branch _ c _ _ => c
  | .nested _ _ f _ => f.settings

/-- The successors of a block are the targets of its slots. -/
def WiredTo (target : String → Option String) : Block → Prop
  | .task _ next _ | .nested _ next _ _ => next = target Slot.source
  | .branch _ _ onSuccess onFailure =>
    onSuccess = target Slot.success ∧ onFailure = target Slot.failure

/-- A block is what its definition says, where `target` says where its slots lead. -/
structure Realizes (b : Block) (d : BlockDef) (target : String → Option String) : Prop where
  id : b.id = d.id
  kind : b.kind = d.kind
  settings : Json.readValue b.kind.reads d.told = .ok b.settings
  wired : b.WiredTo target

/-- The body of a block: an entry, and blocks under their ids. -/
def body? : Block → Option (String × BlockMap)
  | .nested _ _ _ body => body
  | _ => none

variable {target : String → Option String} {body : Option (String × BlockMap)}

theorem ofSettings_realizes (d : BlockDef) (s : d.kind.Settings)
    (h : Json.readValue d.kind.reads d.told = .ok s) :
    (ofSettings d.id target body d.kind s).Realizes d target := by
  have hdata : d.told = (if d.data.isNull then Json.obj [] else d.data) := rfl
  rw [hdata] at h
  obtain ⟨id, kind, data, position⟩ := d
  -- Each constructor of `Block` stands for its kind, so every case holds by computing.
  cases kind <;> first
    | exact ⟨rfl, rfl, h, rfl⟩
    | exact ⟨rfl, rfl, h, rfl, rfl⟩

theorem ofSettings_body? (id : String) (k : Kind) (s : k.Settings) :
    (ofSettings id target body k s).body? = if k.hasBody then body else none := by
  cases k <;> rfl

end Block

/-! ### What the compiler does with settings -/

namespace Compiler

variable {c : Compiler} {b : BlockDef} {α : Type} {r : Json.Reader α} {check : α → Check}

theorem config_ok {a : α} (h : c.config r check b = .ok a) :
    Json.readValue r b.told = .ok a ∧ (c.validate = true → check a = .ok ()) := by
  have hdata : b.told = (if b.data.isNull then Json.obj [] else b.data) := rfl
  rw [hdata]
  rw [config] at h
  split at h
  · simp at h
  · rename_i a' hread
    split at h
    · simp at h
    · rename_i hpass
      simp only [Except.ok.injEq] at h
      subst h
      refine ⟨hread, ?_⟩
      intro hv
      cases hc : check a' with
      | ok u => rfl
      | error text => exact absurd hv (hpass text hc)

theorem config_error {e : BuildError} (h : c.config r check b = .error e) :
    ∃ text, e = .invalidConfig b.id b.kind text ∧
      ((∃ m, Json.readValue r b.told = .error m ∧ text = m.message) ∨
        (c.validate = true ∧ ∃ a, Json.readValue r b.told = .ok a ∧ check a = .error text)) := by
  have hdata : b.told = (if b.data.isNull then Json.obj [] else b.data) := rfl
  rw [hdata]
  rw [config] at h
  split at h
  · rename_i m hread
    simp only [Except.error.injEq] at h
    exact ⟨m.message, h.symm, Or.inl ⟨m, hread, rfl⟩⟩
  · rename_i a hread
    split at h
    · rename_i text hc hv
      simp only [Except.error.injEq] at h
      exact ⟨text, h.symm, Or.inr ⟨hv, a, hread, hc⟩⟩
    · simp at h

theorem taskBlock_map (c : Compiler) (b : BlockDef) (x : Except BuildError α) (f : α → Task) :
    c.taskBlock b (x.map f)
      = x.map fun s => Block.task b.id (c.wiring.successor b.id Slot.source) (f s) := by
  cases x <;> rfl

theorem nestedBlock_map (c : Compiler) (b : BlockDef) (body : Option (String × BlockMap))
    (x : Except BuildError α) (f : α → Frame) :
    c.nestedBlock b body (x.map f)
      = x.map fun s => Block.nested b.id (c.wiring.successor b.id Slot.source) (f s) body := by
  cases x <;> rfl

/-- **All kinds are compiled alike**: their settings are read and checked, and then put into a
block. -/
theorem block_eq (c : Compiler) (b : BlockDef) (body : Option (String × BlockMap)) :
    c.block b body
      = (c.config b.kind.reads b.kind.checks b).map
          (Block.ofSettings b.id (c.wiring.successor b.id) body b.kind) := by
  have hkind : ∀ k, b.kind = k → c.block b body
      = (c.config k.reads k.checks b).map
          (Block.ofSettings b.id (c.wiring.successor b.id) body k) := by
    intro k hk
    simp only [block, hk]
    cases k with
    | entrypoint | branch | transaction => rfl
    | count | each => exact nestedBlock_map c b body _ _
    | _ => exact taskBlock_map c b _ _
  exact hkind b.kind rfl

/-- A block that was built is what its definition says, and the definition is accepted. -/
theorem block_ok {body : Option (String × BlockMap)} {built : Block}
    (h : c.block b body = .ok built) :
    built.Realizes b (c.wiring.successor b.id) ∧ b.Accepted c.validate ∧
      built.body? = if b.kind.hasBody then body else none := by
  rw [block_eq] at h
  cases hconf : c.config b.kind.reads b.kind.checks b with
  | error e => simp [hconf, Except.map] at h
  | ok s =>
      simp only [hconf, Except.map, Except.ok.injEq] at h
      obtain ⟨hread, hcheck⟩ := config_ok hconf
      rw [← h]
      exact ⟨Block.ofSettings_realizes b s hread, ⟨s, hread, hcheck⟩,
        Block.ofSettings_body? b.id b.kind s⟩

/-- A block that cannot be built has settings that are turned down. -/
theorem block_error {body : Option (String × BlockMap)} {e : BuildError}
    (h : c.block b body = .error e) :
    ∃ text, e = .invalidConfig b.id b.kind text ∧ b.Rejected c.validate text := by
  rw [block_eq] at h
  cases hconf : c.config b.kind.reads b.kind.checks b with
  | ok s => simp [hconf, Except.map] at h
  | error e' =>
      simp only [hconf, Except.map, Except.error.injEq] at h
      obtain ⟨text, rfl, hwhy⟩ := config_error hconf
      refine ⟨text, h.symm, ?_⟩
      rcases hwhy with ⟨m, hm, rfl⟩ | ⟨hv, s, hread, hcheck⟩
      · exact .unreadable hm
      · exact .unfit hv hread hcheck

end Compiler

end FlowGraph
