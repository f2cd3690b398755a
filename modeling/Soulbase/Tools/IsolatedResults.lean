/-
# Results of other tenants and tools

Invocations follow one another over one idempotency store. An invocation that is answered
from the store should get a result of its own tenant and its own tool.

A result is stored and looked up under the text that the client has sent, and neither the
tenant nor the tool is part of it. So the first to use a key answers all who use it later. The
results are kept apart iff no invocation comes with a key under which one of another tenant
or tool has stored its result.
-/

import Soulbase.Tools.Invocations

namespace Soulbase.Tools

open Soulbase.Foundation

/-- An invocation, from its beginning to its end. -/
structure Invoked where
  request : InvokeRequest
  before : ToolWorld
  calls : List ToolStep
  result : ToolResult InvokeResult
  after : ToolWorld

namespace Invoked

variable (invoked other : Invoked)

/-- It runs as `invoke` does. -/
def Happens (crates : ToolCrates) : Prop :=
  Trail ToolWorld.answer (invoked.request.invoke crates) invoked.before invoked.calls
    invoked.result invoked.after

/-- It is answered from the store. -/
def Answered (hit : InvokeResult) : Prop :=
  ∃ key, ⟨.idempotencyGet key, some hit⟩ ∈ invoked.calls

/-- It stores a result. -/
def Stores (key : String) (result : InvokeResult) : Prop :=
  ⟨.idempotencyPut key result, ()⟩ ∈ invoked.calls

/-- It returns a result of its own. -/
structure Produces (result : InvokeResult) : Prop where
  returns : invoked.result = .ok result
  own : ∀ hit, ¬invoked.Answered hit

/-- Both are of one tenant and one tool. -/
structure SameTool : Prop where
  tenant : invoked.request.call.tenant = other.request.call.tenant
  tool : invoked.request.manifest.id = other.request.manifest.id

end Invoked

/-- Invocations one after the other over a store that was empty, the latest first. -/
inductive History (crates : ToolCrates) : List Invoked → ToolWorld → Prop
  | start (world : ToolWorld) : world.results = ∅ → History crates [] world
  | invoke {past : List Invoked} {invoked : Invoked} : History crates past invoked.before →
      invoked.Happens crates → History crates (invoked :: past) invoked.after

/-- What is answered from the store was produced before, with the same key, by the same tool
for the same tenant. -/
def Isolated (past : List Invoked) : Prop :=
  ∀ invoked earlier, invoked :: earlier <:+ past → ∀ hit, invoked.Answered hit →
    ∃ source ∈ earlier, source.SameTool invoked ∧ source.Produces hit ∧
      source.request.idempotencyKey = invoked.request.idempotencyKey

/-- No invocation comes with a key under which one of another tenant or tool has stored its
result. -/
def Apart (past : List Invoked) : Prop :=
  ∀ invoked earlier, invoked :: earlier <:+ past → ∀ key result,
    invoked.request.idempotencyKey = some key → ∀ source ∈ earlier, source.Stores key result →
      source.SameTool invoked

/-- What the calls of an invocation say of its phase, and of the store. -/
structure Lookup.Explains (key : Option String) (start : ToolWorld) (phase : Lookup)
    (calls : List ToolStep) (world : ToolWorld) : Prop where
  hits : ∀ used hit, ⟨.idempotencyGet used, some hit⟩ ∈ calls ↔ key = some used ∧ phase = .hit hit
  puts : ∀ used result, ⟨.idempotencyPut used result, ()⟩ ∈ calls ↔
    key = some used ∧ phase = .stored result
  found : ∀ used hit, key = some used → phase = .hit hit → start.results.get used = some hit
  missed : ∀ used, key = some used → (phase = .missed ∨ ∃ result, phase = .stored result) →
    start.results.get used = none
  stored : ∀ used result, key = some used → phase = .stored result →
    world.results = start.results.put used result
  kept : (∀ used result, ¬(key = some used ∧ phase = .stored result)) →
    world.results = start.results

namespace Lookup

variable {key : Option String} {start world next : ToolWorld} {phase : Lookup}
variable {calls : List ToolStep} {choice : ToolChoice} {op : ToolOp} {answer : op.Answer}

theorem Explains.begin (key : Option String) (world : ToolWorld) :
    Explains key world .coming [] world where
  hits _ _ := ⟨nofun, nofun⟩
  puts _ _ := ⟨nofun, nofun⟩
  found := nofun
  missed _ _ := by
    rintro (hphase | ⟨_, hphase⟩) <;> cases hphase
  stored := nofun
  kept _ := rfl

/-- A call that is not one of the store. -/
theorem Explains.aside (h : Explains key start phase calls world)
    (hop : op.isStore = false) (hworld : next.results = world.results) :
    Explains key start phase (calls ++ [⟨op, answer⟩]) next where
  hits used hit := by
    rw [← h.hits, List.mem_append, List.mem_singleton, or_iff_left]
    rintro ⟨⟩
    cases hop
  puts used result := by
    rw [← h.puts, List.mem_append, List.mem_singleton, or_iff_left]
    rintro ⟨⟩
    cases hop
  found := h.found
  missed := h.missed
  stored used result hkey hphase := hworld.trans (h.stored used result hkey hphase)
  kept hphase := hworld.trans (h.kept hphase)

/-- A lookup. -/
theorem Explains.get {used : String} {found : Option InvokeResult}
    (h : Explains key start .coming calls world) (hkey : key = some used)
    (hfound : world.results.get used = found) :
    Explains key start (Lookup.after .coming (.idempotencyGet used) found)
      (calls ++ [⟨.idempotencyGet used, found⟩]) world := by
  have hstart : start.results.get used = found := by
    rw [← hfound, h.kept fun _ _ => nofun]
  have hnone : ∀ used hit, (⟨.idempotencyGet used, some hit⟩ : ToolStep) ∉ calls := by
    intro used hit hmem
    cases ((h.hits used hit).mp hmem).2
  cases found with
  | none =>
      refine ⟨?_, ?_, nofun, ?_, nofun, fun _ => h.kept fun _ _ => nofun⟩
      · intro other hit
        simp only [List.mem_append, List.mem_singleton, hnone, false_or]
        exact ⟨nofun, nofun⟩
      · intro other result
        rw [List.mem_append, List.mem_singleton, h.puts]
        constructor
        · rintro (⟨_, hphase⟩ | hmem)
          · cases hphase
          · cases hmem
        · nofun
      · intro other hother _
        cases hkey.symm.trans hother
        exact hstart
  | some hit =>
      refine ⟨?_, ?_, ?_, ?_, nofun, fun _ => h.kept fun _ _ => nofun⟩
      · intro other given
        simp only [List.mem_append, List.mem_singleton, hnone, false_or, hkey, after]
        constructor
        · rintro ⟨⟩
          exact ⟨rfl, rfl⟩
        · rintro ⟨⟨⟩, ⟨⟩⟩
          rfl
      · intro other result
        rw [List.mem_append, List.mem_singleton, h.puts]
        constructor
        · rintro (⟨_, hphase⟩ | hmem)
          · cases hphase
          · cases hmem
        · nofun
      · rintro other given hother ⟨⟩
        cases hkey.symm.trans hother
        exact hstart
      · rintro other _ (hphase | ⟨_, hphase⟩) <;> cases hphase

/-- The result is stored. -/
theorem Explains.put {used : String} {result : InvokeResult}
    (h : Explains key start .missed calls world) (hkey : key = some used) :
    Explains key start (.stored result) (calls ++ [⟨.idempotencyPut used result, ()⟩])
      { world with results := world.results.put used result } where
  hits other hit := by
    rw [List.mem_append, List.mem_singleton, h.hits]
    constructor
    · rintro (⟨_, hphase⟩ | hmem)
      · cases hphase
      · cases hmem
    · nofun
  puts other given := by
    rw [List.mem_append, List.mem_singleton, h.puts, hkey]
    constructor
    · rintro (⟨_, hphase⟩ | hmem)
      · cases hphase
      · cases hmem
        exact ⟨rfl, rfl⟩
    · rintro ⟨⟨⟩, ⟨⟩⟩
      exact .inr rfl
  found := nofun
  missed other hother _ := h.missed other hother (.inl rfl)
  stored other given hother hphase := by
    cases hkey.symm.trans hother
    cases hphase
    change world.results.put used result = _
    rw [h.kept fun _ _ => nofun]
  kept hphase := absurd ⟨hkey, rfl⟩ (hphase used result)

/-- Every permitted call. -/
theorem Explains.step (h : Explains key start phase calls world)
    (hpermits : (discipline key).permits phase op)
    (hanswer : ToolWorld.answer world choice op = some (answer, next)) :
    Explains key start (phase.after op answer) (calls ++ [⟨op, answer⟩]) next := by
  cases hstore : op.isStore with
  | false =>
      rw [after_of_isStore hstore]
      exact h.aside hstore (ToolWorld.results_of_answer hanswer hstore)
  | true =>
      cases op with
      | idempotencyGet used =>
          obtain ⟨hkey, rfl⟩ := hpermits
          cases hanswer
          exact h.get hkey rfl
      | idempotencyPut used result =>
          obtain ⟨hkey, rfl⟩ := hpermits
          cases hanswer
          exact h.put hkey
      | _ => cases hstore

end Lookup

namespace Invoked

variable {crates : ToolCrates} {invoked : Invoked} {key : String} {hit result : InvokeResult}

/-- The phase in which an invocation ends. -/
theorem exists_phase (h : invoked.Happens crates) :
    ∃ phase, Lookup.Concludes invoked.request.idempotencyKey invoked.result phase ∧
      Lookup.Explains invoked.request.idempotencyKey invoked.before phase invoked.calls
        invoked.after := by
  obtain ⟨hconcludes, hexplains⟩ := Trail.follows_all h (invoked.request.follows_invoke crates)
    (fun calls world => Lookup.Explains invoked.request.idempotencyKey invoked.before
      ((Lookup.discipline invoked.request.idempotencyKey).afterAll .coming calls) calls world)
    (fun calls world choice op answer next hpermits hanswer hexplains => by
      rw [Discipline.afterAll_concat]
      exact ⟨trivial, hexplains.step hpermits hanswer⟩) (.begin _ _)
  exact ⟨_, hconcludes, hexplains⟩

/-- What is answered from the store was there, under the key of the request. -/
theorem Happens.get_of_answered (h : invoked.Happens crates) (hanswered : invoked.Answered hit) :
    ∃ key, invoked.request.idempotencyKey = some key ∧
      invoked.before.results.get key = some hit := by
  obtain ⟨phase, _, hexplains⟩ := exists_phase h
  obtain ⟨key, hmem⟩ := hanswered
  obtain ⟨hkey, hphase⟩ := (hexplains.hits key hit).mp hmem
  exact ⟨key, hkey, hexplains.found key hit hkey hphase⟩

/-- Whoever comes with a key that is taken is answered from the store. -/
theorem Happens.answered_of_get (h : invoked.Happens crates)
    (hkey : invoked.request.idempotencyKey = some key)
    (hget : invoked.before.results.get key = some hit) : invoked.Answered hit := by
  obtain ⟨phase, hconcludes, hexplains⟩ := exists_phase h
  have hmissed : ¬(phase = .missed ∨ ∃ result, phase = .stored result) := by
    intro hphase
    rw [hexplains.missed key hkey hphase] at hget
    cases hget
  have hfound : ∃ given, phase = .hit given := by
    cases hresult : invoked.result with
    | error err =>
        rw [hresult] at hconcludes
        rcases hconcludes with hnone | hphase
        · cases hkey.symm.trans hnone
        · exact absurd (.inl hphase) hmissed
    | ok given =>
        rw [hresult] at hconcludes
        rcases hconcludes with hnone | hphase | hphase
        · cases hkey.symm.trans hnone
        · exact ⟨given, hphase⟩
        · exact absurd (.inr ⟨given, hphase⟩) hmissed
  obtain ⟨given, hphase⟩ := hfound
  cases hget.symm.trans (hexplains.found key given hkey hphase)
  exact ⟨key, (hexplains.hits key hit).mpr ⟨hkey, hphase⟩⟩

/-- Who stores a result has found nothing under its key, and returns what it stores. -/
theorem Happens.of_stores (h : invoked.Happens crates) (hstores : invoked.Stores key result) :
    invoked.request.idempotencyKey = some key ∧ invoked.before.results.get key = none ∧
      invoked.Produces result ∧
        invoked.after.results = invoked.before.results.put key result := by
  obtain ⟨phase, hconcludes, hexplains⟩ := exists_phase h
  obtain ⟨hkey, rfl⟩ := (hexplains.puts key result).mp hstores
  refine ⟨hkey, hexplains.missed key hkey (.inr ⟨result, rfl⟩), ?_,
    hexplains.stored key result hkey rfl⟩
  refine ⟨?_, ?_⟩
  · cases hresult : invoked.result with
    | error err =>
        rw [hresult] at hconcludes
        rcases hconcludes with hnone | hphase
        · cases hkey.symm.trans hnone
        · cases hphase
    | ok given =>
        rw [hresult] at hconcludes
        rcases hconcludes with hnone | hphase | hphase
        · cases hkey.symm.trans hnone
        · cases hphase
        · cases hphase
          rfl
  · rintro hit ⟨used, hmem⟩
    cases ((hexplains.hits used hit).mp hmem).2

/-- What an invocation with a key returns of its own it stores. -/
theorem Happens.stores_of_produces (h : invoked.Happens crates)
    (hkey : invoked.request.idempotencyKey = some key) (hproduces : invoked.Produces result) :
    invoked.Stores key result := by
  obtain ⟨phase, hconcludes, hexplains⟩ := exists_phase h
  rw [hproduces.returns] at hconcludes
  rcases hconcludes with hnone | hphase | hphase
  · cases hkey.symm.trans hnone
  · exact absurd ⟨key, (hexplains.hits key result).mpr ⟨hkey, hphase⟩⟩ (hproduces.own result)
  · exact (hexplains.puts key result).mpr ⟨hkey, hphase⟩

/-- Who stores nothing leaves the store as it was. -/
theorem Happens.results_of_not_stores (h : invoked.Happens crates)
    (hstores : ∀ key result, ¬invoked.Stores key result) :
    invoked.after.results = invoked.before.results := by
  obtain ⟨phase, _, hexplains⟩ := exists_phase h
  apply hexplains.kept
  intro key result hphase
  exact hstores key result ((hexplains.puts key result).mpr hphase)

end Invoked

/-! ## Histories of invocations -/

namespace History

variable {crates : ToolCrates} {past earlier : List Invoked} {world : ToolWorld}
variable {invoked source other : Invoked} {key : String} {result given : InvokeResult}

/-- What is in the store was stored by an invocation. -/
theorem get_eq_some_iff (h : History crates past world) :
    world.results.get key = some result ↔ ∃ source ∈ past, source.Stores key result := by
  induction h generalizing key result with
  | start world hempty =>
      rw [hempty, HashMap.get_empty]
      simp
  | @invoke past invoked _ hhappens ih =>
      by_cases hstores : ∃ used given, invoked.Stores used given
      · obtain ⟨used, given, hstores⟩ := hstores
        obtain ⟨hkey, hvacant, hproduces, hafter⟩ := hhappens.of_stores hstores
        rw [hafter, HashMap.get_put]
        constructor
        · split
          case isTrue heq =>
            rintro ⟨⟩
            subst heq
            exact ⟨invoked, List.mem_cons_self, hstores⟩
          case isFalse =>
            intro hget
            obtain ⟨source, hmem, hsource⟩ := ih.mp hget
            exact ⟨source, List.mem_cons_of_mem _ hmem, hsource⟩
        · rintro ⟨source, hmem, hsource⟩
          rcases List.mem_cons.mp hmem with rfl | hmem
          · obtain ⟨hkey', _, hproduces', _⟩ := hhappens.of_stores hsource
            cases hkey.symm.trans hkey'
            cases hproduces.returns.symm.trans hproduces'.returns
            rw [if_pos rfl]
          · have hget := ih.mpr ⟨source, hmem, hsource⟩
            have hne : key ≠ used := by
              rintro rfl
              cases hget.symm.trans hvacant
            rw [if_neg hne]
            exact hget
      · have hnone : ∀ used given, ¬invoked.Stores used given :=
          fun used given hused => hstores ⟨used, given, hused⟩
        rw [hhappens.results_of_not_stores hnone, ih]
        constructor
        · rintro ⟨source, hmem, hsource⟩
          exact ⟨source, List.mem_cons_of_mem _ hmem, hsource⟩
        · rintro ⟨source, hmem, hsource⟩
          rcases List.mem_cons.mp hmem with rfl | hmem
          · exact absurd hsource (hnone key result)
          · exact ⟨source, hmem, hsource⟩

/-- A result is stored under a key once. -/
theorem eq_of_stores (h : History crates past world) (hsource : source ∈ past)
    (hother : other ∈ past) (hstores : source.Stores key result)
    (hgiven : other.Stores key given) : source = other := by
  induction h with
  | start world hempty => cases hsource
  | @invoke past invoked hpast hhappens ih =>
      have hvacant : ∀ {source result given}, source ∈ past → source.Stores key result →
          ¬invoked.Stores key given := by
        intro source result given hmem hsource hinvoked
        have hget := hpast.get_eq_some_iff.mpr ⟨source, hmem, hsource⟩
        cases hget.symm.trans (hhappens.of_stores hinvoked).2.1
      rcases List.mem_cons.mp hsource with rfl | hearly
      · rcases List.mem_cons.mp hother with rfl | hearly
        · rfl
        · exact absurd hstores (hvacant hearly hgiven)
      · rcases List.mem_cons.mp hother with rfl | hother_early
        · exact absurd hgiven (hvacant hearly hstores)
        · exact ih hearly hother_early

/-- What an invocation runs on is what the earlier ones have left. -/
theorem of_suffix (h : History crates past world) (hsuffix : invoked :: earlier <:+ past) :
    History crates earlier invoked.before ∧ invoked.Happens crates := by
  induction h with
  | start world hempty => cases List.suffix_nil.mp hsuffix
  | @invoke past latest hpast hhappens ih =>
      rcases List.suffix_cons_iff.mp hsuffix with heq | hsuffix
      · cases heq
        exact ⟨hpast, hhappens⟩
      · exact ih hsuffix

/-- Who is in a history has run. -/
theorem happens_of_mem (h : History crates past world) (hsource : source ∈ past) :
    source.Happens crates := by
  obtain ⟨later, earlier, rfl⟩ := List.append_of_mem hsource
  exact (h.of_suffix (List.suffix_append later (source :: earlier))).2

/-- The results are kept apart iff no invocation comes with a key under which one of another
tenant or tool has stored its result. -/
theorem isolated_iff_apart (h : History crates past world) : Isolated past ↔ Apart past := by
  constructor
  · intro hisolated invoked earlier hsuffix key result hkey source hsource hstores
    obtain ⟨hearlier, hhappens⟩ := h.of_suffix hsuffix
    have hget := hearlier.get_eq_some_iff.mpr ⟨source, hsource, hstores⟩
    obtain ⟨other, hother, hsame, hproduces, hother_key⟩ :=
      hisolated invoked earlier hsuffix result (hhappens.answered_of_get hkey hget)
    have hstored := (hearlier.happens_of_mem hother).stores_of_produces
      (hother_key.trans hkey) hproduces
    rwa [hearlier.eq_of_stores hsource hother hstores hstored]
  · intro hapart invoked earlier hsuffix hit hanswered
    obtain ⟨hearlier, hhappens⟩ := h.of_suffix hsuffix
    obtain ⟨key, hkey, hget⟩ := hhappens.get_of_answered hanswered
    obtain ⟨source, hsource, hstores⟩ := hearlier.get_eq_some_iff.mp hget
    obtain ⟨hsource_key, _, hproduces, _⟩ := (hearlier.happens_of_mem hsource).of_stores hstores
    exact ⟨source, hsource, hapart invoked earlier hsuffix key hit hkey source hsource hstores,
      hproduces, hsource_key.trans hkey.symm⟩

end History

namespace TwoTenants

/-- An invocation for a tenant, where operations return a text. -/
def run (text tenant : String) (world : ToolWorld) : Option Invoked :=
  (trailWith ToolWorld.answer (List.replicate 16 (echoChoice text))
    ((echoRequest tenant).invoke echoCrates) world).map fun trail =>
      { request := echoRequest tenant
        before := world
        calls := trail.1
        result := trail.2.1
        after := trail.2.2 }

variable {text tenant : String} {world : ToolWorld}

theorem happens_run (h : (run text tenant world).isSome = true) :
    ((run text tenant world).get h).before = world ∧
      ((run text tenant world).get h).Happens echoCrates := by
  obtain ⟨⟨calls, result, after⟩, htrail, hrun⟩ :=
    Option.map_eq_some_iff.mp (Option.some_get h).symm
  rw [← hrun]
  exact ⟨rfl, trail_of_trailWith _ htrail⟩

/-- The first tenant uses a key. -/
def first : Invoked := (run "the data of tenant-a" "tenant-a" .new).get rfl

/-- Another tenant uses the same key. -/
def second (tenant : String) : Invoked := (run "other data" tenant first.after).get rfl

/-- What the first tenant is given. -/
def data : InvokeResult :=
  .ok (.object [("body", .string "the data of tenant-a")]) (some ⟨"call-1"⟩)

theorem history (tenant : String) :
    History echoCrates [second tenant, first] (second tenant).after := by
  obtain ⟨hbefore, hfirst⟩ : first.before = .new ∧ first.Happens echoCrates :=
    happens_run rfl
  obtain ⟨hmiddle, hsecond⟩ :
      (second tenant).before = first.after ∧ (second tenant).Happens echoCrates :=
    happens_run rfl
  refine .invoke ?_ hsecond
  rw [hmiddle]
  refine .invoke ?_ hfirst
  rw [hbefore]
  exact .start _ rfl

theorem answered_second (tenant : String) : (second tenant).Answered data :=
  ⟨"key-123", List.mem_of_getElem? (i := 1) rfl⟩

end TwoTenants

/-- A tenant that uses the key of another one gets the data of that one. -/
theorem not_isolated_tenants :
    ¬∀ crates past world, History crates past world → Isolated past := by
  intro h
  obtain ⟨source, hsource, hsame, _⟩ := h _ _ _ (TwoTenants.history "tenant-b") _ _
    List.suffix_rfl TwoTenants.data (TwoTenants.answered_second "tenant-b")
  obtain rfl := List.mem_singleton.mp hsource
  exact absurd hsame.tenant (by decide)

/-- The same tenant may use its key again. -/
theorem isolated_iff_apart_retry :
    Isolated [TwoTenants.second "tenant-a", TwoTenants.first] ↔
      Apart [TwoTenants.second "tenant-a", TwoTenants.first] :=
  History.isolated_iff_apart (TwoTenants.history "tenant-a")

end Soulbase.Tools
