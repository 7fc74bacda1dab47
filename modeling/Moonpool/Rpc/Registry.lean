import Moonpool.Rpc.Call

/-!
Owns the dynamic endpoint registry (`endpoint/registry.rs`): slots indexed by token, a free
list, and generations that never wrap.
-/

namespace Moonpool.Rpc

open List Option

/-- Why a registration did not happen; `panicked` is the failed assertion. -/
inductive RegistryError where
  | full
  | panicked (message : String)
deriving DecidableEq

structure RegistrySlot (T : Type) where
  generation : UInt32
  value : Option T

/-- A token is valid only while its slot holds a value registered under its generation. -/
structure Registry (T : Type) where
  slots : List (RegistrySlot T)
  free : List UInt64
  live : Nat
  maxLive : Nat

namespace Registry

variable {T : Type} (registry : Registry T)

def new (maxLive : Nat) : Registry T := ⟨[], [], 0, maxLive⟩

def put (index : UInt64) (slot : RegistrySlot T) (free : List UInt64)
    (live : Nat) : Registry T :=
  { registry with slots := registry.slots.set index.toNat slot, free, live }

def occupy (index : UInt64) (value : T) :
    Except RegistryError (Registry T × EndpointToken) :=
  match registry.slots[index.toNat]? with
  | none => .error .full
  | some slot =>
    if slot.value.isSome then .error (.panicked "free-listed slot must be empty")
    else
      .ok (registry.put index ⟨slot.generation, some value⟩ registry.free (registry.live + 1),
        ⟨index, slot.generation⟩)

def insert (value : T) :
    Except RegistryError (Registry T × EndpointToken) :=
  if registry.maxLive ≤ registry.live then .error .full
  else
    match registry.free with
    | index :: later => occupy { registry with free := later } index value
    | [] =>
      let index := UInt64.ofNat registry.slots.length
      if 2 ^ 64 ≤ registry.slots.length ∨ EndpointToken.isWellKnown ⟨index, 0⟩ then .error .full
      else occupy { registry with slots := registry.slots ++ [⟨0, none⟩] } index value

def get (token : EndpointToken) : Option T :=
  registry.slots[token.index.toNat]?.bind fun slot =>
    if slot.generation = token.generation then slot.value else none

/-- Remove the value under `token`, unless it is stale. A slot whose generation cannot advance is
retired. -/
def remove (token : EndpointToken) : Registry T × Option T :=
  match registry.slots[token.index.toNat]? with
  | none => (registry, none)
  | some slot =>
    if slot.generation ≠ token.generation ∨ slot.value.isNone then (registry, none)
    else
      let live := registry.live - 1
      if slot.generation.toNat + 1 < 2 ^ 32 then
        (registry.put token.index ⟨slot.generation + 1, none⟩ (token.index :: registry.free) live,
          slot.value)
      else (registry.put token.index ⟨slot.generation, none⟩ registry.free live, slot.value)

def tokens : List EndpointToken :=
  registry.slots.zipIdx.filterMap fun entry =>
    if entry.1.value.isSome then some ⟨UInt64.ofNat entry.2, entry.1.generation⟩ else none

def drain : Registry T × List T :=
  registry.tokens.foldl (fun drained token =>
    let (registry, value) := drained.1.remove token
    (registry, drained.2 ++ value.toList)) (registry, [])

/-- The registries reached from a new one, with every token issued, latest first, and what is
registered under each. -/
inductive Runs (maxLive : Nat) :
    Registry T → List EndpointToken → (EndpointToken → Option T) → Prop where
  | new : Runs maxLive (new maxLive) [] fun _ => none
  | insert {registry next : Registry T} {issued : List EndpointToken}
      {live : EndpointToken → Option T} {value : T} {token : EndpointToken} :
      Runs maxLive registry issued live → registry.insert value = .ok (next, token) →
      Runs maxLive next (token :: issued) (Function.update live token (some value))
  | remove {registry : Registry T} {issued : List EndpointToken}
      {live : EndpointToken → Option T} (token : EndpointToken) :
      Runs maxLive registry issued live →
      Runs maxLive (registry.remove token).1 issued (Function.update live token none)
  | drain {registry : Registry T} {issued : List EndpointToken}
      {live : EndpointToken → Option T} :
      Runs maxLive registry issued live →
      Runs maxLive registry.drain.1 issued fun _ => none

/-- What every run keeps: a free slot is empty, and its token was not issued yet. -/
structure Sound (maxLive : Nat) (registry : Registry T) (issued : List EndpointToken) : Prop where
  distinct : issued.Nodup
  past : ∀ token ∈ issued, ∃ slot, registry.slots[token.index.toNat]? = some slot ∧
    (token.generation < slot.generation ∨
      (token.generation = slot.generation ∧ token.index ∉ registry.free))
  freeNodup : registry.free.Nodup
  free : ∀ index ∈ registry.free, ∃ slot, registry.slots[index.toNat]? = some slot ∧
    slot.value = none
  counted : registry.live = registry.slots.countP (·.value.isSome)
  within : registry.live ≤ maxLive
  limit : registry.maxLive = maxLive

variable {maxLive : Nat} {registry next : Registry T} {issued : List EndpointToken}
  {token other : EndpointToken} {value : T}

variable {slot : RegistrySlot T}

theorem countP_set {slots : List (RegistrySlot T)} {index : Nat}
    (new : RegistrySlot T) (found : slots[index]? = some slot) :
    (slots.set index new).countP (·.value.isSome) + slot.value.isSome.toNat =
      slots.countP (·.value.isSome) + new.value.isSome.toNat := by
  obtain ⟨bound, rfl⟩ := List.getElem?_eq_some_iff.mp found
  have held : slots[index].value.isSome → 0 < slots.countP (·.value.isSome) := fun held =>
    countP_pos_iff.mpr ⟨_, getElem_mem bound, held⟩
  rw [countP_set bound]
  generalize slots.countP _ = total at held ⊢
  generalize slots[index].value = old at held ⊢
  cases old <;> cases new.value <;> simp at held ⊢ <;> omega

/-- The slot may take a value: it is empty, not free for another one, and its tokens are of earlier
generations. -/
structure Vacant (maxLive : Nat) (registry : Registry T) (issued : List EndpointToken)
    (index : UInt64) (slot : RegistrySlot T) : Prop where
  found : registry.slots[index.toNat]? = some slot
  empty : slot.value = none
  taken : index ∉ registry.free
  fresh : ∀ token ∈ issued, token.index = index → token.generation < slot.generation
  room : registry.live < maxLive

theorem Sound.insert_cases (sound : Sound maxLive registry issued) (value : T) :
    registry.insert value = .error .full ∨
      ∃ (base : Registry T) (index : UInt64) (slot : RegistrySlot T),
        registry.insert value = base.occupy index value ∧ Sound maxLive base issued ∧
          Vacant maxLive base issued index slot ∧ base.get = registry.get := by
  have limit := sound.limit
  unfold insert
  by_cases full : registry.maxLive ≤ registry.live
  · exact .inl (if_pos full)
  rw [if_neg full]
  have room : registry.live < maxLive := by omega
  cases free : registry.free with
  | cons index later =>
    have nodup := free ▸ sound.freeNodup
    obtain ⟨slot, found, empty⟩ := sound.free index (by simp [free])
    refine .inr ⟨{ registry with free := later }, index, slot, rfl,
      { sound with past := ?_, freeNodup := (nodup_cons.mp nodup).2, free := ?_ },
      ⟨found, empty, (nodup_cons.mp nodup).1, ?_, room⟩, rfl⟩
    · intro token issuedToken
      obtain ⟨held, at_index, order⟩ := sound.past token issuedToken
      exact ⟨held, at_index, order.imp_right fun same =>
        ⟨same.1, fun isFree => same.2 (by simp [free, isFree])⟩⟩
    · exact fun other isFree => sound.free other (by simp [free, isFree])
    · rintro token issuedToken rfl
      obtain ⟨held, at_index, earlier | same⟩ := sound.past token issuedToken
      · exact (some.inj (found.symm.trans at_index)) ▸ earlier
      · exact absurd (by simp [free]) same.2
  | nil =>
    dsimp only
    split_ifs with wide
    · exact .inl rfl
    have short : registry.slots.length < 2 ^ 64 := by
      simp only [not_or, not_le] at wide
      exact wide.1
    have index_toNat : (UInt64.ofNat registry.slots.length).toNat = registry.slots.length :=
      UInt64.toNat_ofNat_of_lt' short
    have grown {index : Nat} {held : RegistrySlot T}
        (at_index : registry.slots[index]? = some held) :
        (registry.slots ++ [⟨0, none⟩])[index]? = some held := by
      rw [getElem?_append_left (List.getElem?_eq_some_iff.mp at_index).1, at_index]
    refine .inr ⟨{ registry with slots := registry.slots ++ [⟨0, none⟩] },
      UInt64.ofNat registry.slots.length, ⟨0, none⟩, by rw [free],
      { sound with past := ?_, free := ?_, counted := ?_ },
      ⟨by simp [index_toNat], rfl, by simp [free], ?_, room⟩, ?_⟩
    · intro token issuedToken
      obtain ⟨held, at_index, order⟩ := sound.past token issuedToken
      exact ⟨held, grown at_index, order⟩
    · intro index isFree
      simp [free] at isFree
    · simp [sound.counted]
    · intro token issuedToken same
      obtain ⟨held, at_index, -⟩ := sound.past token issuedToken
      rw [same, index_toNat, getElem?_eq_none le_rfl] at at_index
      cases at_index
    · funext token
      unfold get
      rcases lt_trichotomy token.index.toNat registry.slots.length with inside | last | beyond
      · rw [getElem?_append_left inside]
      · simp [last]
      · rw [getElem?_eq_none (by simpa using Nat.succ_le_of_lt beyond),
          getElem?_eq_none beyond.le]

theorem Vacant.occupy_eq {index : UInt64}
    (vacant : Vacant maxLive registry issued index slot) (value : T) :
    registry.occupy index value =
      .ok (registry.put index ⟨slot.generation, some value⟩ registry.free (registry.live + 1),
        ⟨index, slot.generation⟩) := by
  simp [occupy, vacant.found, vacant.empty]

section

variable {index : UInt64} {slot new : RegistrySlot T} {free : List UInt64} {live : Nat}

theorem get_put (found : registry.slots[index.toNat]? = some slot) (token : EndpointToken) :
    (registry.put index new free live).get token =
      if token.index = index then (if new.generation = token.generation then new.value else none)
      else registry.get token := by
  have bound := (List.getElem?_eq_some_iff.mp found).1
  by_cases same : token.index = index
  · simp [get, put, same, bound]
  · have apart : index.toNat ≠ token.index.toNat := fun equal =>
      same (UInt64.toNat_inj.mp equal.symm)
    simp [get, put, same, getElem?_set_ne apart]

theorem Sound.overwrite (sound : Sound maxLive registry issued)
    (found : registry.slots[index.toNat]? = some slot) (nodup : free.Nodup)
    (grows : slot.generation < new.generation ∨
      (slot.generation = new.generation ∧ index ∉ free))
    (others : ∀ other ∈ free, other = index ∨ other ∈ registry.free)
    (emptied : index ∈ free → new.value = none)
    (counts : live + slot.value.isSome.toNat = registry.live + new.value.isSome.toNat)
    (within : live ≤ maxLive) :
    Sound maxLive (registry.put index new free live) issued := by
  have bound := (List.getElem?_eq_some_iff.mp found).1
  have written : (registry.slots.set index.toNat new)[index.toNat]? = some new := by simp [bound]
  have kept {other : UInt64} (apart : other ≠ index) :
      (registry.slots.set index.toNat new)[other.toNat]? = registry.slots[other.toNat]? :=
    getElem?_set_ne fun equal => apart (UInt64.toNat_inj.mp equal.symm)
  refine { sound with past := ?_, freeNodup := nodup, free := ?_, counted := ?_, within }
  · intro token issuedToken
    obtain ⟨held, at_index, order⟩ := sound.past token issuedToken
    by_cases same : token.index = index
    · refine ⟨new, same ▸ written, ?_⟩
      cases some.inj (found.symm.trans (same ▸ at_index))
      rcases grows with later | ⟨equal, taken⟩
      · exact .inl (order.elim (fun earlier => UInt32.lt_trans earlier later)
          fun current => current.1 ▸ later)
      · exact equal ▸ order.imp_right fun current => ⟨current.1, same ▸ taken⟩
    · exact ⟨held, (kept same).trans at_index, order.imp_right fun current =>
        ⟨current.1, fun isFree => (others _ isFree).elim same current.2⟩⟩
  · intro other isFree
    by_cases same : other = index
    · exact ⟨new, same ▸ written, emptied (same ▸ isFree)⟩
    · obtain ⟨held, at_index, empty⟩ := sound.free other ((others _ isFree).resolve_left same)
      exact ⟨held, (kept same).trans at_index, empty⟩
  · have total := countP_set new found
    have counted := sound.counted
    show live = (registry.slots.set index.toNat new).countP _
    omega

end

theorem Sound.occupied {index : UInt64}
    (sound : Sound maxLive registry issued) (vacant : Vacant maxLive registry issued index slot)
    (value : T) :
    Sound maxLive
      (registry.put index ⟨slot.generation, some value⟩ registry.free (registry.live + 1))
      (⟨index, slot.generation⟩ :: issued) := by
  have bound := (List.getElem?_eq_some_iff.mp vacant.found).1
  have kept : Sound maxLive
      (registry.put index ⟨slot.generation, some value⟩ registry.free (registry.live + 1)) issued :=
    sound.overwrite vacant.found sound.freeNodup (.inr ⟨rfl, vacant.taken⟩)
      (fun _ isFree => .inr isFree) (fun isFree => absurd isFree vacant.taken)
      (by simp [vacant.empty]) vacant.room
  refine { kept with distinct := ?_, past := ?_ }
  · exact nodup_cons.mpr
      ⟨fun issuedToken => UInt32.lt_irrefl _ (vacant.fresh _ issuedToken rfl), sound.distinct⟩
  · rintro token (_ | ⟨_, issuedToken⟩)
    · exact ⟨⟨slot.generation, some value⟩, by simp [put, bound], .inr ⟨rfl, vacant.taken⟩⟩
    · exact kept.past token issuedToken

theorem remove_cases (registry : Registry T) (token : EndpointToken) :
    (registry.get token = none ∧ registry.remove token = (registry, none)) ∨
      ∃ (slot new : RegistrySlot T) (free : List UInt64),
        registry.slots[token.index.toNat]? = some slot ∧ slot.generation = token.generation ∧
        slot.value.isSome ∧ new.value = none ∧
        ((slot.generation < new.generation ∧ free = token.index :: registry.free) ∨
          (slot.generation = new.generation ∧ free = registry.free)) ∧
        registry.remove token = (registry.put token.index new free (registry.live - 1), slot.value) := by
  unfold remove get
  cases found : registry.slots[token.index.toNat]? with
  | none => exact .inl ⟨rfl, rfl⟩
  | some slot =>
    by_cases stale : slot.generation ≠ token.generation ∨ slot.value.isNone
    · refine .inl ⟨?_, by dsimp only; rw [if_pos stale]⟩
      rcases stale with old | empty
      · simp [old]
      · simp [isNone_iff_eq_none.mp empty]
    · have current := not_or.mp stale
      have same := not_not.mp current.1
      have held : slot.value.isSome := by simpa [isSome_iff_ne_none] using current.2
      dsimp only
      split_ifs with wide
      · refine .inr ⟨slot, _, _, rfl, same, held, rfl, .inl ⟨?_, rfl⟩, rfl⟩
        show slot.generation.toNat < (slot.generation + 1).toNat
        rw [UInt32.toNat_add, UInt32.toNat_one, Nat.mod_eq_of_lt wide]
        exact Nat.lt_succ_self _
      · exact .inr ⟨slot, ⟨slot.generation, none⟩, _, rfl, same, held, rfl,
          .inr ⟨rfl, rfl⟩, rfl⟩

theorem Sound.removed (sound : Sound maxLive registry issued) (token : EndpointToken) :
    Sound maxLive (registry.remove token).1 issued := by
  rcases remove_cases registry token with
    ⟨-, unchanged⟩ | ⟨slot, new, free, found, same, held, empty, next, removed⟩
  · rwa [unchanged]
  have taken : token.index ∉ registry.free := fun isFree => by
    obtain ⟨other, at_index, none⟩ := sound.free _ isFree
    cases found.symm.trans at_index
    simp [none] at held
  have positive : 0 < registry.live := by
    rw [sound.counted, countP_pos_iff]
    exact ⟨slot, mem_of_getElem? found, held⟩
  have within := sound.within
  rw [removed]
  have counts : registry.live - 1 + slot.value.isSome.toNat =
      registry.live + new.value.isSome.toNat := by
    simp only [held, empty, isSome_none, Bool.toNat_true, Bool.toNat_false]
    omega
  rcases next with ⟨later, rfl⟩ | ⟨equal, rfl⟩
  · exact sound.overwrite found (nodup_cons.mpr ⟨taken, sound.freeNodup⟩) (.inl later)
      (fun _ => mem_cons.mp) (fun _ => empty) counts (by omega)
  · exact sound.overwrite found sound.freeNodup (.inr ⟨equal, taken⟩) (fun _ => .inr)
      (fun _ => empty) counts (by omega)

theorem get_remove (registry : Registry T) (token : EndpointToken) :
    (registry.remove token).1.get = Function.update registry.get token none := by
  funext other
  rw [Function.update_apply]
  rcases remove_cases registry token with
    ⟨nothing, unchanged⟩ | ⟨slot, new, free, found, same, held, empty, next, removed⟩
  · rw [unchanged]
    split_ifs with equal
    · rw [equal, nothing]
    · rfl
  · rw [removed, get_put found]
    by_cases at_index : other.index = token.index
    · simp only [at_index, if_true, empty, ite_self]
      split_ifs with equal
      · rfl
      · have apart : slot.generation ≠ other.generation := fun equals =>
          equal (by cases other; simp_all)
        simp [get, at_index, found, apart]
    · rw [if_neg at_index, if_neg fun equal => at_index (congrArg EndpointToken.index equal)]

theorem drain_eq (registry : Registry T) :
    registry.drain.1 = registry.tokens.foldl (fun registry token => (registry.remove token).1)
      registry := by
  unfold drain
  generalize registry.tokens = tokens, ([] : List T) = taken
  induction tokens generalizing registry taken with
  | nil => rfl
  | cons token later ih => exact ih _ _

theorem mem_tokens (holds : registry.get token = some value) : token ∈ registry.tokens := by
  obtain ⟨slot, found, current⟩ := bind_eq_some_iff.mp holds
  split_ifs at current with same
  refine mem_filterMap.mpr ⟨(slot, token.index.toNat), ?_, ?_⟩
  · exact mem_zipIdx_iff_getElem?.mpr found
  · simp [current, same]

theorem Sound.drained (sound : Sound maxLive registry issued) :
    Sound maxLive registry.drain.1 issued ∧ registry.drain.1.get = fun _ => none := by
  -- Removing the tokens one after the other empties exactly them, and they are all there are.
  have removal : ∀ (tokens : List EndpointToken) (registry : Registry T),
      Sound maxLive registry issued →
      Sound maxLive (tokens.foldl (fun registry token => (registry.remove token).1) registry)
          issued ∧
        ∀ token, (tokens.foldl (fun registry token => (registry.remove token).1) registry).get
          token = if token ∈ tokens then none else registry.get token := by
    intro tokens
    induction tokens with
    | nil => exact fun registry sound => ⟨sound, by simp⟩
    | cons first later ih =>
      intro registry sound
      obtain ⟨soundAfter, after⟩ := ih _ (sound.removed first)
      refine ⟨soundAfter, fun token => ?_⟩
      rw [foldl_cons, after, get_remove, Function.update_apply]
      by_cases here : token = first <;> simp [here]
  obtain ⟨soundAfter, after⟩ := removal registry.tokens registry sound
  rw [drain_eq]
  refine ⟨soundAfter, funext fun token => ?_⟩
  rw [after]
  split_ifs with present
  · rfl
  · cases holds : registry.get token with
    | none => rfl
    | some value => exact absurd (mem_tokens holds) present

theorem Runs.sound {live : EndpointToken → Option T} (run : Runs maxLive registry issued live) :
    Sound maxLive registry issued ∧ registry.get = live := by
  induction run with
  | new =>
    exact ⟨⟨nodup_nil, by simp, nodup_nil, by simp [Registry.new], rfl, Nat.zero_le _,
      rfl⟩, rfl⟩
  | @insert registry next issued live value token _ inserted ih =>
    obtain ⟨sound, reads⟩ := ih
    rcases sound.insert_cases value with refused | ⟨base, index, slot, chosen, kept, vacant, same⟩
    · cases refused.symm.trans inserted
    rw [chosen, vacant.occupy_eq] at inserted
    cases inserted
    refine ⟨kept.occupied vacant value, funext fun token => ?_⟩
    rw [get_put vacant.found, Function.update_apply, ← reads, ← same]
    by_cases at_index : token.index = index
    · rw [if_pos at_index]
      by_cases current : slot.generation = token.generation
      · rw [if_pos current, if_pos (by cases token; simp_all)]
      · rw [if_neg current,
          if_neg fun equal => current (congrArg EndpointToken.generation equal).symm]
        simp [get, at_index, vacant.found, current]
    · rw [if_neg at_index, if_neg fun equal => at_index (congrArg EndpointToken.index equal)]
  | remove token _ ih =>
    obtain ⟨sound, reads⟩ := ih
    exact ⟨sound.removed token, reads ▸ get_remove _ token⟩
  | drain _ ih => exact ih.1.drained

/-- The last generation of the slot `index` was issued. -/
def Exhausted (issued : List EndpointToken) (index : UInt64) : Prop :=
  ⟨index, UInt32.ofNat (2 ^ 32 - 1)⟩ ∈ issued

theorem not_exhausted {index : UInt64} {generation : UInt32}
    (fresh : ∀ token ∈ issued, token.index = index → token.generation < generation) :
    ¬Exhausted issued index := fun exhausted => by
  have later : (2 ^ 32 - 1) < generation.toNat := fresh _ exhausted rfl
  have bound := generation.toNat_lt
  omega

/-- No token is issued twice, each resolves to its own live registration, and an exhausted slot is
never used again. -/
theorem Runs.tokens_never_alias {live : EndpointToken → Option T}
    (run : Runs maxLive registry issued live) :
    issued.Nodup ∧ (∀ token, registry.get token = live token) ∧
      (registry.free.Nodup ∧ ∀ index ∈ registry.free,
        (∃ slot, registry.slots[index.toNat]? = some slot ∧ slot.value = none) ∧
          ¬Exhausted issued index) ∧
      (registry.live = registry.slots.countP (·.value.isSome) ∧ registry.live ≤ maxLive) ∧
      ∀ value,
        (∀ message, registry.insert value ≠ .error (.panicked message)) ∧
          ∀ next token, registry.insert value = .ok (next, token) →
            ¬Exhausted issued token.index := by
  obtain ⟨sound, reads⟩ := run.sound
  refine ⟨sound.distinct, congrFun reads, ⟨sound.freeNodup, fun index isFree => ?_⟩,
    ⟨sound.counted, sound.within⟩, fun value => ?_⟩
  · obtain ⟨slot, found, empty⟩ := sound.free index isFree
    have fresh : ∀ token ∈ issued, token.index = index → token.generation < slot.generation := by
      rintro token issuedToken rfl
      obtain ⟨held, at_index, order⟩ := sound.past token issuedToken
      cases found.symm.trans at_index
      exact order.resolve_right fun current => current.2 isFree
    exact ⟨⟨slot, found, empty⟩, not_exhausted fresh⟩
  · rcases sound.insert_cases value with refused | ⟨base, index, slot, chosen, kept, vacant, same⟩
    · simp [refused]
    · rw [chosen, vacant.occupy_eq]
      refine ⟨fun _ => nofun, fun next token inserted => ?_⟩
      cases inserted
      exact not_exhausted vacant.fresh

/-- A slot taken, given back and taken again: the second token differs. -/
theorem reused_slot_never_aliases : ([⟨0, 1⟩, ⟨0, 0⟩] : List EndpointToken).Nodup := by
  have first : Runs 1 (⟨[⟨0, some 7⟩], [], 1, 1⟩ : Registry Nat) [⟨0, 0⟩] _ := .insert .new rfl
  have second : Runs 1 (⟨[⟨1, some 8⟩], [], 1, 1⟩ : Registry Nat) [⟨0, 1⟩, ⟨0, 0⟩] _ :=
    .insert (.remove ⟨0, 0⟩ first) rfl
  exact second.tokens_never_alias.1

end Registry

end Moonpool.Rpc
