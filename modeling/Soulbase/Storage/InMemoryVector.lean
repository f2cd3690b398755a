/-
# The in-memory vector index

`InMemoryVector` keeps the embeddings of all tenants in one map, under the id and the tenant
joined by `::`. A query reads the keys apart again, by their ends, and a removal drops all keys
that begin with the id. The index is a map from tenants and ids as long as every key can be read
in one way only and no removal meets a longer key.
-/

import Soulbase.Foundation.Text
import Soulbase.Storage.Repository

namespace Soulbase.Storage

open Soulbase.Foundation

/-- The embeddings of an index. -/
abbrev Vectors (E : Type) := HashMap String E

/-- The distance of embeddings, and the order of distances. What `sort_by` makes of distances
that do not compare is not specified, but it only reorders them. -/
structure Scoring (E D : Type) where
  l2Distance : E → E → D
  sortByScore : List (String × D) → List (String × D)
  perm : ∀ scored, (sortByScore scored).Perm scored

namespace InMemoryVector

/-- The key of an embedding. -/
def vectorKey (id : String) (tenant : TenantId) : String := id ++ "::" ++ tenant.asStr

section Calls

variable {E D T : Type}

/-- `InMemoryVector::upsert_vec`. -/
def upsertVec (vectors : Vectors E) (tenant : TenantId) (id : String) (embedding : E) :
    Vectors E :=
  vectors.put (vectorKey id tenant) embedding

/-- `InMemoryVector::remove_vec`. It does not look at the tenant. -/
def removeVec (vectors : Vectors E) (_tenant : TenantId) (id : String) : Vectors E :=
  vectors.retain fun key => !Text.startsWith key id

/-- The entry that a query reads off a key, if the key ends like those of the tenant. -/
def readEntry (tenant : TenantId) (key : String) (embedding : E) : Option (String × E) :=
  if Text.endsWith key ("::" ++ tenant.asStr) then some (Text.before "::" key, embedding) else none

/-- The entries that a query considers, in an order in which the map may yield its keys. -/
def considered (vectors : Vectors E) (order : List String) (tenant : TenantId) :
    List (String × E) :=
  order.filterMap fun key => (vectors.get key).bind (readEntry tenant key)

/-- `InMemoryVector::fetch_entity`. -/
def fetchEntity (entity : Entity T) (tables : Tables) (tenant : TenantId) (id : String) :
    StorageResult T := do
  let (table, _) ← okOr (.schema "invalid id format") (Text.splitOnce ':' id)
  let tableMap ← okOr (.notFound "vector target not found") (tables.get table)
  let value ← okOr (.notFound "vector target not found") (tableMap.get id)
  if (value.get "tenant").bind Json.Value.asStr = some tenant.asStr then entity.deserialize value
  else .error (.schema "tenant mismatch")

/-- The record of an id, from a repository if there is one. -/
def lookup (entity : Entity T) (tables : Tables)
    (repo : Option (TenantId → String → StorageResult (Option T))) (tenant : TenantId)
    (id : String) : StorageResult T :=
  match repo with
  | some get => do
      let found ← get tenant id
      okOr (.notFound "entity not found") found
  | none => fetchEntity entity tables tenant id

/-- `InMemoryVector::knn`. -/
def knn (scoring : Scoring E D) (entity : Entity T) (tables : Tables) (vectors : Vectors E)
    (order : List String) (repo : Option (TenantId → String → StorageResult (Option T)))
    (tenant : TenantId) (query : E) (k : ℕ) : StorageResult (List (T × D)) :=
  let scored := (considered vectors order tenant).map fun (id, embedding) =>
    (id, scoring.l2Distance query embedding)
  ((scoring.sortByScore scored).take k).mapM fun (id, score) => do
    let found ← lookup entity tables repo tenant id
    return (found, score)

end Calls

section Specification

variable {E : Type}

/-- A call that changes the index. -/
inductive Call (E : Type)
  | upsert (tenant : TenantId) (id : String) (embedding : E)
  | remove (tenant : TenantId) (id : String)

namespace Call

/-- What a call makes of the index. -/
def apply (vectors : Vectors E) : Call E → Vectors E
  | upsert tenant id embedding => upsertVec vectors tenant id embedding
  | remove tenant id => removeVec vectors tenant id

/-- What a call makes of the entry of a tenant and an id, if the index is a map. -/
def write (tenant : TenantId) (id : String) (old : Option E) : Call E → Option E
  | upsert owner name embedding => if owner = tenant ∧ name = id then some embedding else old
  | remove owner name => if owner = tenant ∧ name = id then none else old

end Call

/-- The index after calls. -/
def run (calls : List (Call E)) : Vectors E := calls.foldl Call.apply ∅

/-- The embedding of a tenant and an id: that of the tenant's last call for the id, if it was an
upsert. -/
def lastUpsert (calls : List (Call E)) (tenant : TenantId) (id : String) : Option E :=
  calls.foldl (Call.write tenant id) none

/-- Queries consider one entry for each embedding of the tenant, and no others. -/
def Considers (vectors : Vectors E) (embedding : TenantId → String → Option E) : Prop :=
  ∀ order, vectors.Enumerates order → ∀ tenant id,
    ((considered vectors order tenant).filter (·.1 = id)).map (·.2) = (embedding tenant id).toList

end Specification

/-- The key of a tenant and an id can be read in one way only. -/
def Separable (id : String) (tenant : TenantId) : Prop :=
  ∀ first rest, vectorKey first rest = vectorKey id tenant → first = id ∧ rest = tenant

/-- What a call must be for the index to stay a map: an upsert writes a key that can be read in
one way only, and a removal meets no key but its own. -/
def Call.Meets {E : Type} (vectors : Vectors E) : Call E → Prop
  | upsert tenant id _ => Separable id tenant
  | remove tenant id => ∀ key ∈ vectors.keys, Text.startsWith key id = true →
      key = vectorKey id tenant

/-- All calls are so. -/
def AllMeet {E : Type} : Vectors E → List (Call E) → Prop
  | _, [] => True
  | vectors, call :: rest => call.Meets vectors ∧ AllMeet (call.apply vectors) rest

section Keys

variable {E : Type} {id : String} {tenant other : TenantId} {key : String}

theorem endsWith_iff : Text.endsWith key ("::" ++ tenant.asStr) = true ↔
    ∃ first, key = vectorKey first tenant := by
  rw [Text.endsWith_iff]
  constructor
  · rintro ⟨first, hfirst⟩
    refine ⟨.ofList first, ?_⟩
    rw [vectorKey, ← String.toList_inj, ← hfirst]
    simp
  · rintro ⟨first, rfl⟩
    exact ⟨first.toList, by simp [vectorKey]⟩

/-- Every key is read in some way. -/
theorem exists_before (id : String) (tenant : TenantId) :
    ∃ rest, vectorKey id tenant = vectorKey (Text.before "::" (vectorKey id tenant)) rest := by
  have hne : "::" ≠ "" := by decide
  obtain ⟨rest, hrest⟩ := Text.before_spec hne id tenant.asStr
  exact ⟨⟨rest⟩, hrest⟩

/-- A key can be read in one way only if the separator is nowhere else in it. -/
theorem separable_iff :
    Separable id tenant ↔
      Text.contains (id ++ ":") "::" = false ∧
        Text.contains (":" ++ tenant.asStr) "::" = false := by
  simp only [← Bool.not_eq_true, Text.contains_iff, ← String.toList_inj, String.toList_append]
  constructor
  · intro h
    have hother : ∀ first rest : List Char,
        first ++ ':' :: ':' :: rest = id.toList ++ ':' :: ':' :: tenant.asStr.toList →
          first = id.toList := by
      intro first rest hsame
      have heq := (h (.ofList first) ⟨.ofList rest⟩ (by
        rw [← String.toList_inj]
        simpa [vectorKey] using hsame)).1
      rw [← heq, String.toList_ofList]
    constructor
    · rintro ⟨first, second, hsame⟩
      change id.toList ++ [':'] = first.toList ++ [':', ':'] ++ second.toList at hsame
      rcases List.eq_nil_or_concat second.toList with hnil | ⟨before, last, hlast⟩
      · rw [hnil, List.append_nil, List.append_cons first.toList] at hsame
        have hcut := List.append_cancel_right hsame
        have hlist := hother first.toList (':' :: tenant.asStr.toList) (by simp [hcut])
        simp [hcut] at hlist
      · rw [hlast, List.concat_eq_append, ← List.append_assoc] at hsame
        have hcut := (List.append_inj' hsame rfl).1
        have hlist := hother first.toList (before ++ ':' :: ':' :: tenant.asStr.toList)
          (by simp [hcut])
        simp [hcut] at hlist
    · rintro ⟨first, second, hsame⟩
      change ':' :: tenant.asStr.toList = first.toList ++ [':', ':'] ++ second.toList at hsame
      cases hfirst : first.toList with
      | nil =>
          rw [hfirst] at hsame
          have hlist := hother (id.toList ++ [':']) second.toList (by
            rw [(List.cons.inj hsame).2]
            simp)
          simp at hlist
      | cons c before =>
          rw [hfirst] at hsame
          have hlist := hother (id.toList ++ ':' :: ':' :: before) second.toList (by
            rw [(List.cons.inj hsame).2]
            simp)
          simp at hlist
  · rintro ⟨hid, htenant⟩ first rest hsame
    rw [vectorKey, vectorKey, ← String.toList_inj] at hsame
    simp only [String.toList_append, List.append_assoc] at hsame
    change first.toList ++ ':' :: ':' :: rest.asStr.toList =
      id.toList ++ ':' :: ':' :: tenant.asStr.toList at hsame
    have hcut : first.toList = id.toList ∧ rest.asStr.toList = tenant.asStr.toList := by
      rcases List.append_eq_append_iff.mp hsame with ⟨between, hbetween, hrest⟩ |
        ⟨between, hbetween, hrest⟩
      · match between with
        | [] => simpa [hbetween] using hrest
        | [c] =>
            obtain ⟨rfl, _⟩ := List.cons.inj hrest
            exact absurd ⟨first, "", by simp [hbetween]⟩ hid
        | c :: d :: between =>
            simp only [List.cons_append, List.cons.injEq] at hrest
            obtain ⟨rfl, rfl, _⟩ := hrest
            exact absurd ⟨first, .ofList (between ++ [':']), by simp [hbetween]⟩ hid
      · match between with
        | [] => simpa [hbetween, eq_comm] using hrest
        | [c] =>
            obtain ⟨rfl, hrest⟩ := List.cons.inj hrest
            exact absurd ⟨"", rest.asStr, by simpa using hrest⟩ htenant
        | c :: d :: between =>
            simp only [List.cons_append, List.cons.injEq] at hrest
            obtain ⟨rfl, rfl, hrest⟩ := hrest
            exact absurd ⟨.ofList (':' :: between), rest.asStr, by simp [hrest]⟩ htenant
    obtain ⟨rest⟩ := rest
    exact ⟨String.toList_inj.mp hcut.1, congrArg TenantId.mk (String.toList_inj.mp hcut.2)⟩

theorem Separable.before_eq (h : Separable id tenant) :
    Text.before "::" (vectorKey id tenant) = id := by
  obtain ⟨rest, hrest⟩ := exists_before id tenant
  exact (h _ _ hrest.symm).1

theorem Separable.endsWith_iff (h : Separable id tenant) :
    Text.endsWith (vectorKey id tenant) ("::" ++ other.asStr) = true ↔ other = tenant := by
  rw [InMemoryVector.endsWith_iff]
  constructor
  · rintro ⟨first, hfirst⟩
    exact (h first other hfirst.symm).2
  · rintro rfl
    exact ⟨id, rfl⟩

theorem readEntry_eq_some_iff (h : Separable id tenant) {embedding : E} {entry : String × E} :
    readEntry other (vectorKey id tenant) embedding = some entry ↔
      other = tenant ∧ entry = (id, embedding) := by
  unfold readEntry
  by_cases hsame : other = tenant
  · rw [if_pos (h.endsWith_iff.mpr hsame), h.before_eq, Option.some.injEq, eq_comm]
    exact ⟨fun heq => ⟨hsame, heq⟩, fun heq => heq.2⟩
  · rw [if_neg fun hends => hsame (h.endsWith_iff.mp hends)]
    exact iff_of_false nofun fun heq => hsame heq.1

end Keys

/-! ## The index is a map -/

section Represents

variable {E : Type} {vectors : Vectors E} {calls rest : List (Call E)} {call : Call E}
variable {id : String} {tenant : TenantId} {embedding : E}

/-- What an index holds: the embeddings of tenants and ids, under keys that can be read in one way
only. -/
structure Represents (vectors : Vectors E) (embedding : TenantId → String → Option E) : Prop where
  separable : ∀ key ∈ vectors.keys, ∃ id tenant, Separable id tenant ∧ key = vectorKey id tenant
  get : ∀ id tenant, Separable id tenant → vectors.get (vectorKey id tenant) = embedding tenant id
  absent : ∀ id tenant, ¬Separable id tenant → embedding tenant id = none

theorem mem_keys_iff {key : String} :
    key ∈ vectors.keys ↔ ∃ embedding, vectors.get key = some embedding := by
  rw [← Option.isSome_iff_exists]
  exact AList.lookup_isSome.symm

/-- The one entry of a key, in a list of keys that has it once. -/
theorem filterMap_singleKey {α : Type*} {order : List String} (hnodup : order.Nodup)
    {key : String} {read : String → Option α}
    (hothers : ∀ other ∈ order, other ≠ key → read other = none) :
    order.filterMap read = if key ∈ order then (read key).toList else [] := by
  induction order with
  | nil => rfl
  | cons first rest ih =>
      obtain ⟨hfirst, hrest⟩ := List.nodup_cons.mp hnodup
      rw [List.filterMap_cons,
        ih hrest fun other hother => hothers other (List.mem_cons_of_mem _ hother)]
      by_cases hkey : first = key
      · subst hkey
        rw [if_neg hfirst, if_pos List.mem_cons_self]
        cases read first <;> rfl
      · rw [hothers first List.mem_cons_self hkey]
        simp [Ne.symm hkey]

/-- The entries of an id are read off its key. -/
theorem considered_eq {embedding : TenantId → String → Option E}
    (h : Represents vectors embedding) {order : List String} (horder : vectors.Enumerates order)
    (tenant : TenantId) (id : String) :
    ((considered vectors order tenant).filter (·.1 = id)).map (·.2) =
      (embedding tenant id).toList := by
  have hentries : ((considered vectors order tenant).filter (·.1 = id)).map (·.2) =
      order.filterMap fun key => ((vectors.get key).bind (readEntry tenant key)).bind
        fun entry => if entry.1 = id then some entry.2 else none := by
    rw [considered, List.filter_filterMap, List.map_filterMap]
    refine List.filterMap_congr fun key _ => ?_
    cases (vectors.get key).bind (readEntry tenant key) with
    | none => rfl
    | some entry => by_cases hid : entry.1 = id <;> simp [Option.filter, hid]
  have hread : ∀ key ∈ order, ∀ entry,
      (vectors.get key).bind (readEntry tenant key) = some entry →
        entry.1 = id → key = vectorKey id tenant ∧ Separable id tenant := by
    intro key hkey entry hentry hid
    obtain ⟨embedding, _, hentry⟩ := Option.bind_eq_some_iff.mp hentry
    obtain ⟨name, owner, hseparable, rfl⟩ := h.separable key (horder.mem_iff.mp hkey)
    obtain ⟨rfl, rfl⟩ := (readEntry_eq_some_iff hseparable).mp hentry
    cases hid
    exact ⟨rfl, hseparable⟩
  have hothers : ∀ other ∈ order, other ≠ vectorKey id tenant →
      ((vectors.get other).bind (readEntry tenant other)).bind
        (fun entry => if entry.1 = id then some entry.2 else none) = none := by
    intro other hother hne
    rw [Option.bind_eq_none_iff]
    intro entry hentry
    rw [if_neg fun hid => hne (hread other hother entry hentry hid).1]
  rw [hentries, filterMap_singleKey horder.nodup hothers]
  by_cases hseparable : Separable id tenant
  · rw [h.get id tenant hseparable |>.symm]
    cases hget : vectors.get (vectorKey id tenant) with
    | none =>
        rw [if_neg fun hkey => ?_]
        · rfl
        · obtain ⟨embedding, hsome⟩ := mem_keys_iff.mp (horder.mem_iff.mp hkey)
          exact absurd (hget.symm.trans hsome) nofun
    | some embedding =>
        rw [if_pos (horder.mem_iff.mpr (mem_keys_iff.mpr ⟨embedding, hget⟩))]
        have hentry : readEntry tenant (vectorKey id tenant) embedding = some (id, embedding) :=
          (readEntry_eq_some_iff hseparable).mpr ⟨rfl, rfl⟩
        rw [Option.bind_some, hentry, Option.bind_some, if_pos rfl]
  · rw [h.absent id tenant hseparable, if_neg]
    · rfl
    · intro hkey
      obtain ⟨name, owner, hother, hsame⟩ := h.separable _ (horder.mem_iff.mp hkey)
      obtain ⟨rfl, rfl⟩ := hother _ _ hsame
      exact hseparable hother

theorem Represents.considers {embedding : TenantId → String → Option E}
    (h : Represents vectors embedding) : Considers vectors embedding :=
  fun _ horder tenant id => considered_eq h horder tenant id

theorem represents_empty : Represents (∅ : Vectors E) fun _ _ => none where
  separable := by
    intro key hkey
    simp at hkey
  get _ _ _ := HashMap.get_empty _
  absent _ _ _ := rfl

/-- A call that is as it must be keeps what the index holds in step with what it is for. -/
theorem Represents.apply {embedding : TenantId → String → Option E}
    (h : Represents vectors embedding) (hmeets : call.Meets vectors) :
    Represents (call.apply vectors) fun tenant id =>
      call.write tenant id (embedding tenant id) := by
  cases call with
  | upsert owner name value =>
      change Separable name owner at hmeets
      refine ⟨?_, ?_, ?_⟩
      · intro key hkey
        rw [mem_keys_iff] at hkey
        change ∃ found, (vectors.put (vectorKey name owner) value).get key = some found at hkey
        rw [HashMap.get_put] at hkey
        by_cases hsame : key = vectorKey name owner
        · exact ⟨name, owner, hmeets, hsame⟩
        · rw [if_neg hsame] at hkey
          exact h.separable key (mem_keys_iff.mpr hkey)
      · intro id tenant hseparable
        change (vectors.put (vectorKey name owner) value).get _ = if _ then _ else _
        rw [HashMap.get_put]
        by_cases hsame : owner = tenant ∧ name = id
        · obtain ⟨rfl, rfl⟩ := hsame
          rw [if_pos rfl, if_pos ⟨rfl, rfl⟩]
        · have hne : vectorKey id tenant ≠ vectorKey name owner := by
            intro heq
            obtain ⟨rfl, rfl⟩ := hmeets _ _ heq
            exact hsame ⟨rfl, rfl⟩
          rw [if_neg hne, if_neg hsame]
          exact h.get id tenant hseparable
      · intro id tenant hseparable
        change (if _ then _ else _) = _
        rw [if_neg]
        · exact h.absent id tenant hseparable
        · rintro ⟨rfl, rfl⟩
          exact hseparable hmeets
  | remove owner name =>
      change ∀ key ∈ vectors.keys, _ at hmeets
      have hget : ∀ key, (vectors.retain fun key => !Text.startsWith key name).get key =
          if key = vectorKey name owner then none else vectors.get key := by
        intro key
        rw [HashMap.get_retain]
        by_cases hsame : key = vectorKey name owner
        · rw [if_pos hsame, if_neg]
          rw [hsame, Bool.not_eq_true', Bool.not_eq_false, Text.startsWith_iff]
          simp [vectorKey]
        · rw [if_neg hsame]
          cases hstarts : Text.startsWith key name with
          | false => simp
          | true =>
              cases hkey : vectors.get key with
              | none => simp
              | some found =>
                  exact absurd (hmeets key (mem_keys_iff.mpr ⟨found, hkey⟩) hstarts) hsame
      refine ⟨?_, ?_, ?_⟩
      · intro key hkey
        rw [mem_keys_iff] at hkey
        change ∃ found, (vectors.retain fun key => !Text.startsWith key name).get key =
          some found at hkey
        rw [hget] at hkey
        by_cases hsame : key = vectorKey name owner
        · rw [if_pos hsame] at hkey
          obtain ⟨_, hfound⟩ := hkey
          cases hfound
        · rw [if_neg hsame] at hkey
          exact h.separable key (mem_keys_iff.mpr hkey)
      · intro id tenant hseparable
        change (vectors.retain fun key => !Text.startsWith key name).get _ = if _ then _ else _
        rw [hget]
        by_cases hsame : owner = tenant ∧ name = id
        · obtain ⟨rfl, rfl⟩ := hsame
          rw [if_pos rfl, if_pos ⟨rfl, rfl⟩]
        · have hne : vectorKey id tenant ≠ vectorKey name owner := by
            intro heq
            obtain ⟨rfl, rfl⟩ := hseparable _ _ heq.symm
            exact hsame ⟨rfl, rfl⟩
          rw [if_neg hne, if_neg hsame]
          exact h.get id tenant hseparable
      · intro id tenant hseparable
        change (if _ then _ else _) = _
        split
        · rfl
        · exact h.absent id tenant hseparable

/-- After an upsert under a new key there is one more entry: what is read off that key. -/
theorem considered_put {key : String} (hkey : key ∉ vectors.keys) (value : E)
    (tenant : TenantId) :
    considered (vectors.put key value) (key :: vectors.keys) tenant =
      (readEntry tenant key value).toList ++ considered vectors vectors.keys tenant := by
  have hrest : considered (vectors.put key value) vectors.keys tenant =
      considered vectors vectors.keys tenant := by
    refine List.filterMap_congr fun other hother => ?_
    rw [HashMap.get_put, if_neg]
    rintro rfl
    exact hkey hother
  rw [← hrest, considered, considered, List.filterMap_cons, HashMap.get_put_self, Option.bind_some]
  cases readEntry tenant key value <;> rfl

/-- If the index is still a map after a call, the call was as it must be. -/
theorem Represents.meets {embedding : TenantId → String → Option E}
    (h : Represents vectors embedding)
    (hafter : Considers (call.apply vectors) fun tenant id =>
      call.write tenant id (embedding tenant id)) : call.Meets vectors := by
  cases call with
  | upsert owner name value =>
      by_contra hmeets
      change ¬Separable name owner at hmeets
      have hkey : vectorKey name owner ∉ vectors.keys := by
        intro hkey
        obtain ⟨id, tenant, hseparable, hsame⟩ := h.separable _ hkey
        obtain ⟨rfl, rfl⟩ := hseparable _ _ hsame
        exact hmeets hseparable
      have horder : (vectors.put (vectorKey name owner) value).Enumerates
          (vectorKey name owner :: vectors.keys) := by
        rw [HashMap.Enumerates, HashMap.put, AList.keys_insert, List.erase_of_not_mem hkey]
      have hentries : ∀ tenant id,
          (((readEntry tenant (vectorKey name owner) value).toList.filter (·.1 = id)).map (·.2)) ++
            (embedding tenant id).toList =
              ((Call.upsert owner name value).write tenant id (embedding tenant id)).toList := by
        intro tenant id
        rw [← hafter _ horder tenant id, ← h.considers _ (List.Perm.refl _) tenant id]
        change _ = ((considered (vectors.put _ _) _ _).filter _).map _
        rw [considered_put hkey, List.filter_append, List.map_append]
      have hread : ∀ {first : String} {rest : TenantId},
          vectorKey first rest = vectorKey name owner →
          readEntry rest (vectorKey name owner) value =
            some (Text.before "::" (vectorKey name owner), value) := by
        intro first rest hsame
        rw [readEntry, if_pos (endsWith_iff.mpr ⟨first, hsame.symm⟩)]
      by_cases hbefore : Text.before "::" (vectorKey name owner) = name
      · -- Another tenant has the entry too.
        obtain ⟨first, rest, hsame, hne⟩ : ∃ first rest,
            vectorKey first rest = vectorKey name owner ∧ ¬(first = name ∧ rest = owner) := by
          simpa [Separable] using hmeets
        have hother : owner ≠ rest := by
          rintro rfl
          refine hne ⟨?_, rfl⟩
          simpa [vectorKey, String.append_left_inj] using hsame
        have hlist := hentries rest name
        rw [hread hsame, hbefore, Call.write, if_neg fun heq => hother heq.1] at hlist
        simp at hlist
      · -- The tenant itself has it under another id.
        have hlist := hentries owner name
        rw [hread rfl, h.absent _ _ hmeets, Call.write, if_pos ⟨rfl, rfl⟩] at hlist
        simp [hbefore] at hlist
  | remove owner name =>
      intro key hkey hstarts
      by_contra hne
      obtain ⟨id, tenant, hseparable, rfl⟩ := h.separable key hkey
      obtain ⟨found, hfound⟩ := mem_keys_iff.mp hkey
      have hget := h.get id tenant hseparable
      have hgone : (vectors.retain fun key => !Text.startsWith key name).get
          (vectorKey id tenant) = none := by
        rw [HashMap.get_retain, hstarts]
        rfl
      have hlist := hafter _ (List.Perm.refl _) tenant id
      have hwrite : (Call.remove owner name).write tenant id (embedding tenant id) =
          some found := by
        rw [Call.write, if_neg, ← hget, hfound]
        rintro ⟨rfl, rfl⟩
        exact hne rfl
      dsimp only at hlist
      rw [hwrite] at hlist
      have hmem : found ∈ ((considered (Call.apply vectors (.remove owner name))
          (AList.keys (Call.apply vectors (.remove owner name))) tenant).filter
            (·.1 = id)).map (·.2) := by
        rw [hlist]
        exact List.mem_singleton_self _
      obtain ⟨entry, hentry, _⟩ := List.mem_map.mp hmem
      obtain ⟨hentry, hid⟩ := List.mem_filter.mp hentry
      obtain ⟨other, _, hread⟩ := List.mem_filterMap.mp hentry
      obtain ⟨value, hvalue, hread⟩ := Option.bind_eq_some_iff.mp hread
      change (vectors.retain fun key => !Text.startsWith key name).get other = some value at hvalue
      have hold : vectors.get other = some value := by
        rw [HashMap.get_retain] at hvalue
        split at hvalue
        · exact hvalue
        · cases hvalue
      obtain ⟨otherId, otherTenant, hother, rfl⟩ := h.separable other (mem_keys_iff.mpr ⟨_, hold⟩)
      obtain ⟨rfl, rfl⟩ := (readEntry_eq_some_iff hother).mp hread
      obtain rfl : otherId = id := of_decide_eq_true hid
      cases hgone.symm.trans hvalue

/-- Along calls, the index is a map in every state reached if and only if every call is as it must
be. -/
theorem Represents.considers_iff {embedding : TenantId → String → Option E}
    (h : Represents vectors embedding) :
    AllMeet vectors calls ↔ ∀ earlier, earlier <+: calls →
      Considers (earlier.foldl Call.apply vectors) fun tenant id =>
        earlier.foldl (Call.write tenant id) (embedding tenant id) := by
  induction calls generalizing vectors embedding with
  | nil =>
      refine iff_of_true trivial fun earlier hearlier => ?_
      rw [List.prefix_nil.mp hearlier]
      exact h.considers
  | cons call rest ih =>
      constructor
      · rintro ⟨hmeets, hrest⟩ earlier hearlier
        rcases List.prefix_cons_iff.mp hearlier with rfl | ⟨later, rfl, hlater⟩
        · exact h.considers
        · exact (ih (h.apply hmeets)).mp hrest later hlater
      · intro hall
        have hmeets : call.Meets vectors :=
          h.meets (hall [call] (List.prefix_cons_iff.mpr (.inr ⟨[], rfl, List.nil_prefix⟩)))
        refine ⟨hmeets, (ih (h.apply hmeets)).mpr fun later hlater => ?_⟩
        exact hall (call :: later) (List.cons_prefix_cons.mpr ⟨rfl, hlater⟩)

end Represents

/-- Queries consider the last upserts after all calls up to any point if and only if every call is
as it must be. -/
theorem considers_lastUpsert_iff {E : Type} (calls : List (Call E)) :
    (∀ earlier, earlier <+: calls → Considers (run earlier) (lastUpsert earlier)) ↔
      AllMeet ∅ calls :=
  represents_empty.considers_iff.symm

/-- What a query returns, if every lookup succeeds and no entry is cut off: the entries that it
considers, with their distances. -/
theorem knn_eq_ok {E D T : Type} {scoring : Scoring E D} {entity : Entity T} {tables : Tables}
    {vectors : Vectors E} {order : List String}
    {repo : Option (TenantId → String → StorageResult (Option T))} {tenant : TenantId} {query : E}
    {k : ℕ} {find : String → T}
    (hfind : ∀ entry ∈ considered vectors order tenant,
      lookup entity tables repo tenant entry.1 = .ok (find entry.1))
    (hk : (considered vectors order tenant).length ≤ k) :
    ∃ results, knn scoring entity tables vectors order repo tenant query k = .ok results ∧
      results.Perm ((considered vectors order tenant).map fun (id, embedding) =>
        (find id, scoring.l2Distance query embedding)) := by
  have hsorted := scoring.perm ((considered vectors order tenant).map fun (id, embedding) =>
    (id, scoring.l2Distance query embedding))
  rw [knn, List.take_of_length_le (by rw [hsorted.length_eq, List.length_map]; exact hk),
    @mapM_eq_ok_map _ _ _ _ _ fun scored : String × D => (find scored.1, scored.2)]
  · refine ⟨_, rfl, (hsorted.map _).trans ?_⟩
    rw [List.map_map]
    exact .refl _
  · intro scored hscored
    obtain ⟨entry, hentry, rfl⟩ := List.mem_map.mp (hsorted.mem_iff.mp hscored)
    change (do
      let found ← lookup entity tables repo tenant entry.1
      _) = _
    rw [hfind entry hentry]
    rfl

namespace SameId

/-- Two tenants with an embedding under one id, and a removal by the first. -/
def calls : List (Call Unit) :=
  [.upsert ⟨"a"⟩ "doc:1" (), .upsert ⟨"b"⟩ "doc:1" (), .remove ⟨"a"⟩ "doc:1"]

end SameId

open SameId in
/-- The embedding of the second tenant is gone as well. -/
theorem not_considers_sameId :
    ¬∀ earlier, earlier <+: calls → Considers (run earlier) (lastUpsert earlier) := by
  intro h
  have hlist := h calls List.prefix_rfl [] (by decide) ⟨"b"⟩ "doc:1"
  revert hlist
  decide

end InMemoryVector

end Soulbase.Storage
