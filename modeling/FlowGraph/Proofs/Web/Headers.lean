/-
The order of headers.

A header is looked up by walking through the headers of a request, whose order means nothing: they
come from a hash map.  Names match whatever the case of their letters, while the map tells spellings
apart.  So the value that is found depends on the order as soon as two spellings of the name have
come with two values, and `Request.Agree` says that they have not: this is exactly when the headers
determine it.
-/
import Mathlib.Data.List.Perm.Basic
import FlowGraph.Run.Task

namespace FlowGraph

namespace Request

variable {headers : Entries String} {name : String}

/-- The request with its headers in another order, or with others. -/
def listing (r : Request) (headers : Entries String) : Request := { r with headers := headers }

/-- The headers that match a name all have one value. -/
def Agree (headers : Entries String) (name : String) : Prop :=
  ∀ e ∈ headers, ∀ e' ∈ headers, sameName e.1 name = true → sameName e'.1 name = true → e.2 = e'.2

/-- Where headers agree, the value that is found is the one that they agree on. -/
theorem Agree.header_iff {r : Request} (h : Agree r.headers name) (v : String) :
    r.header name = some v ↔ ∃ key, (key, v) ∈ r.headers ∧ sameName key name = true := by
  rw [header, Option.map_eq_some_iff]
  constructor
  · rintro ⟨⟨key, v⟩, hfind, rfl⟩
    have hsame : sameName key name = true := by simpa using List.find?_some hfind
    exact ⟨key, List.mem_of_find?_eq_some hfind, hsame⟩
  · rintro ⟨key, hmem, hsame⟩
    have hsome : (List.find? (fun e => sameName e.1 name) r.headers).isSome :=
      List.find?_isSome.mpr ⟨(key, v), hmem, hsame⟩
    obtain ⟨e, hfind⟩ := Option.isSome_iff_exists.mp hsome
    have hfirst : sameName e.1 name = true := by simpa using List.find?_some hfind
    exact ⟨e, hfind, h e (List.mem_of_find?_eq_some hfind) (key, v) hmem hfirst hsame⟩

/-- Where headers agree, only which there are is of importance. -/
theorem Agree.header_listing {r : Request} (h : Agree r.headers name)
    (hsame : ∀ e, e ∈ headers ↔ e ∈ r.headers) :
    (r.listing headers).header name = r.header name := by
  have hlisting : Agree (r.listing headers).headers name := fun e he e' he' =>
    h e ((hsame e).mp he) e' ((hsame e').mp he')
  refine Option.ext fun v => ?_
  rw [hlisting.header_iff, h.header_iff]
  exact exists_congr fun key => and_congr_left' (hsame (key, v))

/-- A header that matches may come first. -/
theorem exists_listing {r : Request} {e : String × String} (he : e ∈ r.headers)
    (hname : sameName e.1 name = true) :
    ∃ headers, headers.Perm r.headers ∧ (r.listing headers).header name = some e.2 := by
  obtain ⟨before, after, hsplit⟩ := List.append_of_mem he
  refine ⟨e :: (before ++ after), ?_, ?_⟩
  · rw [hsplit]
    exact List.perm_middle.symm
  · simp [header, listing, hname]

end Request

theorem Json.ofOption_inj {s t : Option String} : Json.ofOption s = Json.ofOption t ↔ s = t := by
  refine ⟨fun h => ?_, congrArg _⟩
  cases s with
  | none =>
      cases t with
      | none => rfl
      | some t => cases h
  | some s =>
      cases t with
      | none => cases h
      | some t => exact congrArg some (Json.str.inj h)

/-- The block that reads a header succeeds with what is found. -/
theorem Task.runRead_header {δ χ : Type} [Store.Database δ] [Client χ] (c : ReadConfig)
    (id : String) (next : Option String) (params : Json) (ctx : Context δ χ) :
    (Task.read .header c).run id next params ctx
      = (.success next (Json.ofOption (ctx.request.header c.name)), ctx) := rfl

/-- **The headers of a request determine what is found under a name exactly if those that match
have one value.**  This is said of the lookup and of the block that reads a header: every other
order of the headers gives the same if and only if they agree.  If they do, the value is the one
that they agree on, and even repetitions make no difference. -/
theorem header_determined_iff (r : Request) (name : String) :
    ((∀ headers, headers.Perm r.headers → (r.listing headers).header name = r.header name) ↔
      Request.Agree r.headers name) ∧
    (Request.Agree r.headers name →
      (∀ v, r.header name = some v ↔
        ∃ key, (key, v) ∈ r.headers ∧ Request.sameName key name = true) ∧
      ∀ headers, (∀ e, e ∈ headers ↔ e ∈ r.headers) →
        (r.listing headers).header name = r.header name) ∧
    ∀ {δ χ : Type} [Store.Database δ] [Client χ] (source : ParamSource) (id : String)
      (next : Option String) (params : Json) (ctx : Context δ χ),
      (∀ headers, headers.Perm r.headers →
        ((Task.read .header ⟨name, source⟩).run id next params
          { ctx with request := r.listing headers }).1
            = ((Task.read .header ⟨name, source⟩).run id next params
              { ctx with request := r }).1) ↔
        Request.Agree r.headers name := by
  have hlookup : (∀ headers, headers.Perm r.headers →
      (r.listing headers).header name = r.header name) ↔ Request.Agree r.headers name := by
    constructor
    · -- Each of two headers that match may come first, and is found then.
      intro h e he e' he' hname hname'
      obtain ⟨headers, hperm, hfirst⟩ := Request.exists_listing he hname
      obtain ⟨headers', hperm', hfirst'⟩ := Request.exists_listing he' hname'
      rw [h headers hperm] at hfirst
      rw [h headers' hperm', hfirst] at hfirst'
      exact Option.some.inj hfirst'
    · intro h headers hperm
      exact h.header_listing fun e => hperm.mem_iff
  refine ⟨hlookup, fun h => ⟨h.header_iff, fun _ => h.header_listing⟩, ?_⟩
  intro δ χ _ _ source id next params ctx
  refine Iff.trans ?_ hlookup
  refine forall_congr' fun headers => imp_congr_right fun _ => ?_
  rw [Task.runRead_header, Task.runRead_header]
  constructor
  · intro houtput
    have hfound := Option.some.inj (congrArg Output.output houtput)
    exact Json.ofOption_inj.mp hfound
  · intro hfound
    exact congrArg (fun found => Output.success next (Json.ofOption found)) hfound

/-- Two spellings of a name that have come with one value. -/
def Request.agreeing : Request := { headers := [("X-Key", "a"), ("x-key", "a")] }

/-- Under any spelling that value is found, however the headers are listed. -/
theorem header_determined_agreeing :
    Request.Agree Request.agreeing.headers "x-KEY" ∧
      Request.agreeing.header "x-KEY" = some "a" ∧
      ∀ headers, (∀ e, e ∈ headers ↔ e ∈ Request.agreeing.headers) →
        (Request.agreeing.listing headers).header "x-KEY" = some "a" := by
  have hagree : Request.Agree Request.agreeing.headers "x-KEY" := by
    simp [Request.Agree, Request.agreeing]
  obtain ⟨-, hdetermined, -⟩ := header_determined_iff Request.agreeing "x-KEY"
  obtain ⟨hfound, hlisted⟩ := hdetermined hagree
  have ha : Request.agreeing.header "x-KEY" = some "a" :=
    (hfound "a").mpr ⟨"X-Key", List.mem_cons_self, by decide⟩
  exact ⟨hagree, ha, fun headers hsame => (hlisted headers hsame).trans ha⟩

/-- Two spellings of a name that have come with two values. -/
def Request.twice : Request := { headers := [("X-Key", "a"), ("x-key", "b")] }

/-- One request, listed in two orders, gives two values. -/
theorem header_depends_on_order :
    (Entries.keys Request.twice.headers).Nodup ∧
      [("x-key", "b"), ("X-Key", "a")].Perm Request.twice.headers ∧
      Request.twice.header "x-key" = some "a" ∧
      (Request.twice.listing [("x-key", "b"), ("X-Key", "a")]).header "x-key" = some "b" := by
  refine ⟨by decide, List.Perm.swap _ _ [], ?_, ?_⟩
  · decide
  · decide

end FlowGraph
