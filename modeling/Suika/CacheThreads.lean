import Suika.Lib.Linearization
import Suika.ArpHandler
import Suika.Ipv4

/-!
# The ARP cache and the identification numbers as threads

`ArpCache` and `ip_gen_id` once more, at the granularity of the machine: the application and the
interrupt thread use them at the same time, each under a mutex of its own.

* `ip_gen_id` keeps its mutex over the read and the write, so that no number is given twice
  (`idThreads_linearizes`).
* `select` keeps the mutex over its search. `create` gives it back between its search and its
  `push_back`: it takes effect at once only where one thread alone creates
  (`cacheThreads_linearizes`), and two threads can add one address twice (`cacheThreads_twice`).
* Whoever creates, the cache only grows at its end (`cacheStep_grows`): what was found is found
  ever after.
-/

namespace Suika

open Threads

/-! ## The cache -/

/-- `ArpCache::arpCacheMutex` -/
inductive CacheMutex : Type where
  | arpCacheMutex
  deriving DecidableEq

abbrev CacheInstr (P : Type) : Type := Instr CacheMutex Empty (List CacheData) P

inductive CacheCall : Type where
  | select (protocolAddress : UInt32)
  | create (c : CacheData)
  deriving DecidableEq

/-- The points of `select` that have the mutex ahead of them, or hold it. -/
inductive FindPoint : Type where
  | lock
  | find (i : ℕ)
  | unlock (it : Option CacheData)
  deriving DecidableEq

inductive CachePoint : Type where
  | select (protocolAddress : UInt32) (p : FindPoint)
  | selected (protocolAddress : UInt32) (it : Option CacheData)
  | createSelect (c : CacheData) (p : FindPoint)
  | createLock (c : CacheData)
  | pushBack (c : CacheData)
  | createUnlock (c : CacheData)
  | created (c : CacheData)
  deriving DecidableEq

/-- `ArpCache::select` inside a call. `std::find_if` looks at one entry after the other; what it
finds is copied under the lock. -/
def findCode {P : Type} (protocolAddress : UInt32) (ret : Option CacheData → P)
    (here : FindPoint → P) : FindPoint → CacheInstr P
  | .lock => .lock .arpCacheMutex (here (.find 0))
  | .find i => .access fun cache => some (cache,
    match cache[i]? with
    | some c => if c.protocolAddress = protocolAddress then here (.unlock (some c))
      else here (.find (i + 1))
    | none => here (.unlock none))
  | .unlock it => .unlock .arpCacheMutex (ret it)

def CacheCall.entry : CacheCall → CachePoint
  | .select protocolAddress => .select protocolAddress .lock
  | .create c => .createSelect c .lock

/-- `ArpCache::select` and `ArpCache::create`. -/
def CachePoint.code : CachePoint → CacheInstr CachePoint
  | .select protocolAddress p =>
    findCode protocolAddress (.selected protocolAddress) (.select protocolAddress) p
  | .selected _ _ => .ret
  | .createSelect c p =>
    findCode c.protocolAddress (fun it => if it.isSome then .created c else .createLock c)
      (.createSelect c) p
  | .createLock c => .lock .arpCacheMutex (.pushBack c)
  | .pushBack c => .access fun cache => some (cache ++ [c], .createUnlock c)
  | .createUnlock c => .unlock .arpCacheMutex (.created c)
  | .created _ => .ret

/-- The ARP cache. -/
def cacheProgram : Program CacheMutex Empty (List CacheData) CacheCall CachePoint :=
  ⟨CacheCall.entry, CachePoint.code⟩

abbrev CacheThreads (T : Type) : Type := State T CacheMutex Empty (List CacheData) CachePoint

/-- The runs of any threads that make any calls, with their trace. -/
abbrev CacheThreadsRun {T : Type} [DecidableEq T] := Runs.Run (Step (T := T) cacheProgram)

/-! ### What the calls do -/

/-- The calls as they are meant: `ArpCache.select` and `ArpCache.create`, at once. -/
def CacheCall.Does : CacheCall → List CacheData → Option CacheData → List CacheData → Prop
  | .select protocolAddress, cache, it, cache' =>
    it = ArpCache.select cache protocolAddress ∧ cache' = cache
  | .create c, cache, it, cache' => it = none ∧ cache' = ArpCache.create cache c

namespace CachePoint

/-- The call of a point. -/
def call : CachePoint → CacheCall
  | .select protocolAddress _ | .selected protocolAddress _ => .select protocolAddress
  | .createSelect c _ | .createLock c | .pushBack c | .createUnlock c | .created c => .create c

/-- What the call will return, once it has taken effect. -/
def answer : CachePoint → Option (Option CacheData)
  | .select _ (.unlock it) => some it
  | .selected _ it => some it
  | .createSelect _ (.unlock (some _)) => some none
  | .createUnlock _ | .created _ => some none
  | _ => none

/-- The points of `create`. -/
def Creates : CachePoint → Prop
  | .select _ _ | .selected _ _ => False
  | _ => True

/-- How far a search has come: no entry before `i` is for the address. -/
def Searched (cache : List CacheData) (protocolAddress : UInt32) (i : ℕ) : Prop :=
  i ≤ cache.length ∧ ∀ c ∈ cache.take i, c.protocolAddress ≠ protocolAddress

/-- What a point knows of the cache, whatever the others do. -/
def Knows : CachePoint → List CacheData → Prop
  | .select a (.find i), cache => Searched cache a i
  | .createSelect c (.find i), cache => Searched cache c.protocolAddress i
  | .select a (.unlock (some c)), cache | .selected a (some c), cache =>
    ArpCache.select cache a = some c
  | .createSelect c (.unlock (some _)), cache =>
    ∃ d, ArpCache.select cache c.protocolAddress = some d
  | _, _ => True

/-- What a point of `create` knows of it, as long as nobody else creates. -/
def KnowsAlone : CachePoint → List CacheData → Prop
  | .createSelect c (.unlock none), cache | .createLock c, cache | .pushBack c, cache =>
    ArpCache.select cache c.protocolAddress = none
  | _, _ => True

variable {p q : CachePoint} {cache cache' : List CacheData} {a : UInt32} {i : ℕ}

theorem Searched.mono (h : Searched cache a i) (hgrows : cache <+: cache') :
    Searched cache' a i := by
  obtain ⟨rest, rfl⟩ := hgrows
  refine ⟨h.1.trans (by simp), ?_⟩
  rw [List.take_append_of_le_length h.1]
  exact h.2

/-- One entry further. -/
theorem Searched.succ {c : CacheData} (h : Searched cache a i) (hc : cache[i]? = some c)
    (hne : c.protocolAddress ≠ a) : Searched cache a (i + 1) := by
  obtain ⟨hi, rfl⟩ := List.getElem?_eq_some_iff.mp hc
  refine ⟨hi, fun d hd => ?_⟩
  rw [List.take_succ_eq_append_getElem hi] at hd
  rcases List.mem_append.mp hd with hd | hd
  · exact h.2 d hd
  · rw [List.mem_singleton.mp hd]
    exact hne

/-- The first entry that matches is what `select` returns. -/
theorem Searched.found {c : CacheData} (h : Searched cache a i) (hc : cache[i]? = some c)
    (heq : c.protocolAddress = a) : ArpCache.select cache a = some c := by
  obtain ⟨hi, rfl⟩ := List.getElem?_eq_some_iff.mp hc
  rw [ArpCache.select, List.find?_eq_some_iff_append]
  refine ⟨decide_eq_true heq, cache.take i, cache.drop (i + 1), ?_, fun d hd => ?_⟩
  · rw [List.getElem_cons_drop, List.take_append_drop]
  · simpa using h.2 d hd

theorem Searched.notFound (h : Searched cache a i) (hc : cache[i]? = none) :
    ArpCache.select cache a = none := by
  rw [ArpCache.select_eq_none]
  rw [← List.take_of_length_le (List.getElem?_eq_none_iff.mp hc)]
  exact h.2

/-- What is found stays found: entries are added behind it. -/
theorem select_of_grows {c : CacheData} (h : ArpCache.select cache a = some c)
    (hgrows : cache <+: cache') : ArpCache.select cache' a = some c := by
  obtain ⟨rest, rfl⟩ := hgrows
  rw [ArpCache.select] at h
  rw [ArpCache.select, List.find?_append, h]
  rfl

/-- **Entries are only added**, and at the end, by `pushBack`. -/
theorem code_data (h : p.code.Leads cache cache' q) :
    cache' = cache ∨ ∃ c, p = .pushBack c ∧ cache' = cache ++ [c] := by
  have hfind : ∀ {a : UInt32} {ret : Option CacheData → CachePoint} {here : FindPoint → CachePoint}
      {p : FindPoint}, (findCode a ret here p).Leads cache cache' q → cache' = cache := by
    intro a ret here p h
    cases p with
    | lock | unlock => exact h.1
    | find i => exact (congrArg Prod.fst (Option.some.inj h)).symm
  cases p with
  | select | createSelect => exact Or.inl (hfind h)
  | selected | created => exact h.elim
  | createLock | createUnlock => exact Or.inl h.1
  | pushBack c => exact Or.inr ⟨c, rfl, (congrArg Prod.fst (Option.some.inj h)).symm⟩

theorem code_grows (h : p.code.Leads cache cache' q) : cache <+: cache' := by
  rcases code_data h with rfl | ⟨c, -, rfl⟩
  · exact List.prefix_refl _
  · exact List.prefix_append _ _

/-- What a point knows is not changed by what others add. -/
theorem Knows.mono (h : p.Knows cache) (hgrows : cache <+: cache') : p.Knows cache' := by
  match p, h with
  | .select _ (.find _), h | .createSelect _ (.find _), h => exact Searched.mono h hgrows
  | .select _ (.unlock (some _)), h | .selected _ (some _), h => exact select_of_grows h hgrows
  | .createSelect _ (.unlock (some _)), ⟨d, hd⟩ => exact ⟨d, select_of_grows hd hgrows⟩
  | .select _ .lock, _ | .select _ (.unlock none), _ | .selected _ none, _
  | .createSelect _ .lock, _ | .createSelect _ (.unlock none), _ | .createLock _, _
  | .pushBack _, _ | .createUnlock _, _ | .created _, _ => trivial

/-- **One instruction of a call**: what its point knows, the next one knows. -/
theorem Knows.code (h : p.Knows cache) (hcode : p.code.Leads cache cache' q) :
    q.Knows cache' := by
  cases p with
  | select a p =>
    cases p with
    | lock =>
      obtain ⟨rfl, rfl⟩ := hcode
      exact ⟨Nat.zero_le _, fun c hc => absurd hc List.not_mem_nil⟩
    | find i =>
      cases Option.some.inj hcode
      cases hc : cache[i]? with
      | none => trivial
      | some c =>
        dsimp only
        split
        · rename_i heq
          exact Searched.found h hc heq
        · rename_i hne
          exact Searched.succ h hc hne
    | unlock it =>
      obtain ⟨rfl, rfl⟩ := hcode
      cases it with
      | none => trivial
      | some c => exact h
  | createSelect c p =>
    cases p with
    | lock =>
      obtain ⟨rfl, rfl⟩ := hcode
      exact ⟨Nat.zero_le _, fun c hc => absurd hc List.not_mem_nil⟩
    | find i =>
      cases Option.some.inj hcode
      cases hc : cache[i]? with
      | none => trivial
      | some d =>
        dsimp only
        split
        · rename_i heq
          exact ⟨d, Searched.found h hc heq⟩
        · rename_i hne
          exact Searched.succ h hc hne
    | unlock it =>
      obtain ⟨rfl, rfl⟩ := hcode
      cases it <;> trivial
  | selected | created => exact hcode.elim
  | createLock | createUnlock =>
    obtain ⟨rfl, rfl⟩ := hcode
    trivial
  | pushBack c =>
    cases Option.some.inj hcode
    trivial

/-- The same for what it knows alone. -/
theorem KnowsAlone.code (h : p.KnowsAlone cache) (hknows : p.Knows cache)
    (hcode : p.code.Leads cache cache' q) : q.KnowsAlone cache' := by
  cases p with
  | select a p =>
    cases p with
    | lock | unlock =>
      obtain ⟨rfl, rfl⟩ := hcode
      trivial
    | find i =>
      cases Option.some.inj hcode
      cases hc : cache[i]? with
      | none => trivial
      | some c =>
        dsimp only
        split <;> trivial
  | createSelect c p =>
    cases p with
    | lock =>
      obtain ⟨rfl, rfl⟩ := hcode
      trivial
    | find i =>
      cases Option.some.inj hcode
      cases hc : cache[i]? with
      | none => exact Searched.notFound hknows hc
      | some d =>
        dsimp only
        split <;> trivial
    | unlock it =>
      obtain ⟨rfl, rfl⟩ := hcode
      cases it with
      | none => exact h
      | some d => trivial
  | selected | created => exact hcode.elim
  | createLock c =>
    obtain ⟨rfl, rfl⟩ := hcode
    exact h
  | createUnlock =>
    obtain ⟨rfl, rfl⟩ := hcode
    trivial
  | pushBack c =>
    cases Option.some.inj hcode
    trivial

/-- **Where a call takes effect.** -/
theorem code_effect (hknows : p.Knows cache) (halone : p.KnowsAlone cache)
    (hcode : p.code.Leads cache cache' q) :
    q.call = p.call ∧ (q.answer = p.answer ∧ cache' = cache ∨
      p.answer = none ∧ ∃ it, q.answer = some it ∧ p.call.Does cache it cache') := by
  cases p with
  | select a p =>
    cases p with
    | lock | unlock =>
      obtain ⟨rfl, rfl⟩ := hcode
      exact ⟨rfl, Or.inl ⟨rfl, rfl⟩⟩
    | find i =>
      -- `select` does when its search ends
      cases Option.some.inj hcode
      cases hc : cache[i]? with
      | none =>
        exact ⟨rfl, Or.inr ⟨rfl, none, rfl, (Searched.notFound hknows hc).symm, rfl⟩⟩
      | some c =>
        dsimp only
        split
        · rename_i heq
          exact ⟨rfl, Or.inr ⟨rfl, some c, rfl, (Searched.found hknows hc heq).symm, rfl⟩⟩
        · exact ⟨rfl, Or.inl ⟨rfl, rfl⟩⟩
  | createSelect c p =>
    cases p with
    | lock =>
      obtain ⟨rfl, rfl⟩ := hcode
      exact ⟨rfl, Or.inl ⟨rfl, rfl⟩⟩
    | find i =>
      cases Option.some.inj hcode
      cases hc : cache[i]? with
      | none => exact ⟨rfl, Or.inl ⟨rfl, rfl⟩⟩
      | some d =>
        dsimp only
        split
        · rename_i heq
          -- `create` finds the address and adds nothing
          refine ⟨rfl, Or.inr ⟨rfl, none, rfl, rfl, ?_⟩⟩
          rw [ArpCache.create, Searched.found hknows hc heq]
        · exact ⟨rfl, Or.inl ⟨rfl, rfl⟩⟩
    | unlock it =>
      obtain ⟨rfl, rfl⟩ := hcode
      cases it <;> exact ⟨rfl, Or.inl ⟨rfl, rfl⟩⟩
  | selected | created => exact hcode.elim
  | createLock | createUnlock =>
    obtain ⟨rfl, rfl⟩ := hcode
    exact ⟨rfl, Or.inl ⟨rfl, rfl⟩⟩
  | pushBack c =>
    cases Option.some.inj hcode
    have hnone : ArpCache.select cache c.protocolAddress = none := halone
    refine ⟨rfl, Or.inr ⟨rfl, none, rfl, rfl, ?_⟩⟩
    rw [ArpCache.create, hnone]

/-- A call of `select` that has found an entry would find it now. -/
theorem select_of_effect {c : CacheData} (h : p.Knows cache)
    (heffect : effectOf call answer p = some (.select a, some c)) :
    ArpCache.select cache a = some c := by
  obtain ⟨it, hanswer, heq⟩ := Option.map_eq_some_iff.mp heffect
  obtain ⟨hcall, rfl⟩ := Prod.mk.inj heq
  match p, h, hanswer, hcall with
  | .select _ (.unlock (some _)), h, rfl, rfl | .selected _ (some _), h, rfl, rfl => exact h

/-- The mutexes a point is reached with. -/
def held : CachePoint → Set CacheMutex
  | .select _ .lock | .createSelect _ .lock => ∅
  | .select _ _ | .createSelect _ _ | .pushBack _ | .createUnlock _ => {.arpCacheMutex}
  | _ => ∅

end CachePoint

theorem findCode_respects {P : Type} {held : P → Set CacheMutex} {a : UInt32}
    {ret : Option CacheData → P} {here : FindPoint → P} (hret : ∀ it, held (ret it) = ∅)
    (hlock : held (here .lock) = ∅)
    (hhere : ∀ p, p ≠ .lock → held (here p) = {.arpCacheMutex}) (p : FindPoint) :
    (findCode a ret here p).Respects held (held (here p)) := by
  cases p with
  | lock =>
    intro n
    rw [hhere _ (by simp), hlock]
    simp
  | find i =>
    intro d d' q hq
    cases Option.some.inj hq
    rw [hhere (.find i) (by simp)]
    split
    · split <;> exact hhere _ (by simp)
    · exact hhere _ (by simp)
  | unlock it =>
    rw [hhere (.unlock it) (by simp)]
    refine ⟨rfl, fun n => ?_⟩
    rw [hret]
    simp

/-- **Both calls use the mutex as their points say.** -/
theorem cacheProgram_respects : Respects cacheProgram CachePoint.held where
  entry op := by cases op <;> rfl
  code p := by
    cases p with
    | select a p =>
      exact @findCode_respects _ CachePoint.held a (.selected a) (.select a) (fun _ => rfl) rfl
        (fun p hp => by cases p <;> first | rfl | simp at hp) p
    | createSelect c p =>
      refine @findCode_respects _ CachePoint.held _ _ (.createSelect c) (fun it => ?_) rfl
        (fun p hp => by cases p <;> first | rfl | simp at hp) p
      split <;> rfl
    | pushBack c =>
      intro d d' q hq
      cases Option.some.inj hq
      rfl
    | _ => simp [cacheProgram, CachePoint.code, Instr.Respects, CachePoint.held]

section Runs

variable {T : Type} [DecidableEq T] {s s' : CacheThreads T} {t w : T}

/-- Every thread stands at a point that is right about the cache. -/
structure CacheInvariant (s : CacheThreads T) : Prop where
  disciplined : Disciplined cacheProgram CachePoint.held s
  knows : Outline CachePoint.Knows s

omit [DecidableEq T] in
theorem CacheInvariant.start (cache : List CacheData) :
    CacheInvariant (State.start cache : CacheThreads T) :=
  ⟨Disciplined.start cache, fun _ _ h => by cases h⟩

/-- A step adds entries at the end, or none. -/
theorem cacheStep_grows (h : Step cacheProgram s t s') : s.data <+: s'.data := by
  obtain ⟨p, q, -, -, hcode⟩ | ⟨hdata, -⟩ := h.thread_cases fun p => p.code.next_leads
  · exact CachePoint.code_grows hcode
  · rw [hdata]

theorem CacheInvariant.step (hs : CacheInvariant s) (h : Step cacheProgram s t s') :
    CacheInvariant s' := by
  refine ⟨hs.disciplined.step cacheProgram_respects h, ?_⟩
  refine hs.knows.step (R := fun p => p.code.Leads) (fun p => p.code.next_leads) hs.disciplined h
    (fun op => by cases op <;> trivial) (fun hcode hp => hp.code hcode) ?_ ?_
  · intro p c
    exact c.elim
  · intro p q u r d' hst hcode _ _ hr
    exact hr.mono (CachePoint.code_grows hcode)

/-- The one thread that creates is right about what is not in the cache. -/
structure CacheInvariantAlone (w : T) (s : CacheThreads T) : Prop extends CacheInvariant s where
  alone : ∀ p, s.status w = .running p → p.KnowsAlone s.data

/-- Only `w` carries out instructions of `create`. -/
def CreatesAlone (w : T) (s : CacheThreads T) (t : T) : Prop :=
  ∀ p, s.status t = .running p → p.Creates → t = w

theorem CacheInvariantAlone.step (hs : CacheInvariantAlone w s) (hw : CreatesAlone w s t)
    (h : Step cacheProgram s t s') : CacheInvariantAlone w s' := by
  refine ⟨hs.toCacheInvariant.step h, fun r hr => ?_⟩
  by_cases ht : t = w
  · subst ht
    obtain ⟨p, q, hst, hst', hcode⟩ | ⟨hdata, ⟨op, -, hst'⟩ | ⟨m, q, hst, -⟩ |
      ⟨-, c, -, -, -, -, -⟩ | ⟨-, -, -, hst'⟩ | ⟨c, -, -, -, -⟩⟩ :=
        h.thread_cases fun p => p.code.next_leads
    · rw [hst'] at hr
      obtain rfl := Status.running.inj hr
      exact (hs.alone p hst).code (hs.knows t p hst) hcode
    · rw [hst'] at hr
      obtain rfl := Status.running.inj hr
      cases op <;> trivial
    · have hwait := hs.disciplined.fromWait t
      rw [hst] at hwait
      obtain ⟨p, c, -⟩ := hwait
      exact c.elim
    · exact c.elim
    · rw [hst'] at hr
      cases hr
    · exact c.elim
  · -- the others add nothing
    have hr' := (h.running_ne (Ne.symm ht)).mp hr
    have hdata : s'.data = s.data := by
      obtain ⟨p, q, hst, -, hcode⟩ | ⟨hdata, -⟩ := h.thread_cases fun p => p.code.next_leads
      · rcases CachePoint.code_data hcode with hsame | ⟨c, rfl, -⟩
        · exact hsame
        · exact absurd (hw _ hst trivial) ht
      · exact hdata
    rw [hdata]
    exact hs.alone r hr'

omit [DecidableEq T] in
/-- **`select` and `create` take effect at once**, as long as one thread alone creates. -/
theorem cacheThreads_linearizes (w : T) :
    Linearizes cacheProgram (CacheInvariantAlone w) (CreatesAlone w) id CacheCall.Does
      CachePoint.call CachePoint.answer where
  entry op := by cases op <;> exact ⟨rfl, rfl⟩
  code {s t p d q} hs hw hst hcode := by
    by_cases hp : p.Creates
    · obtain rfl := hw p hst hp
      exact CachePoint.code_effect (hs.knows t p hst) (hs.alone p hst) hcode
    · refine CachePoint.code_effect (hs.knows t p hst) ?_ hcode
      cases p <;> first | trivial | exact absurd trivial hp
  ret {p} hp := by
    cases p with
    | selected | created => rfl
    | select a p | createSelect a p => cases p <;> cases hp
    | createLock | pushBack | createUnlock => cases hp

omit [DecidableEq T] in
/-- A sequence of calls keeps the addresses unique. -/
theorem CacheCall.unique_of_run {cache cache' : List CacheData}
    {tr : List (Runs.Record (List CacheData) (T × CacheCall × Option CacheData))}
    (h : Runs.Run (fun a (l : T × CacheCall × Option CacheData) b => l.2.1.Does a l.2.2 b)
      cache tr cache') (hcache : ArpCache.Unique cache) : ArpCache.Unique cache' := by
  refine h.invariant (I := ArpCache.Unique) (fun {a l b} ha hl => ?_) hcache
  obtain ⟨t, call, it⟩ := l
  cases call with
  | select a => exact hl.2 ▸ ha
  | create c => exact hl.2 ▸ ha.create

end Runs

/-- **Two threads that create** both find nothing, and both add the address. -/
theorem cacheThreads_twice :
    ∃ (tr : List (Runs.Record (CacheThreads Bool) Bool)) (s : CacheThreads Bool),
      CacheThreadsRun (State.start []) tr s ∧ ¬ ArpCache.Unique s.data := by
  obtain ⟨tr, s, hrun, htest⟩ := exists_run_of_schedule cacheProgram (State.start [])
    ((false, .call (.create ⟨0xC0000201, []⟩)) :: List.replicate 3 (false, .go) ++
      (true, .call (.create ⟨0xC0000201, []⟩)) :: List.replicate 5 (true, .go) ++
      [(true, .go), (true, .go), (false, .go), (false, .go), (false, .go)])
    (fun r : List (Runs.Record (CacheThreads Bool) Bool) × CacheThreads Bool =>
      decide (r.2.data.map CacheData.protocolAddress = [0xC0000201, 0xC0000201]))
    (by decide +kernel)
  refine ⟨tr, s, hrun, fun hunique => ?_⟩
  have hne : (s.data.map CacheData.protocolAddress).Pairwise (· ≠ ·) :=
    List.pairwise_map.mpr hunique
  rw [of_decide_eq_true htest] at hne
  simp at hne

/-! ## The identification numbers -/

/-- `ipGenIdMutex`, the static one of `ip_gen_id`. -/
inductive IdMutex : Type where
  | ipGenIdMutex
  deriving DecidableEq

inductive IdPoint : Type where
  | lock
  | read
  | write (ret : UInt16)
  | unlock (ret : UInt16)
  | returns (ret : UInt16)
  deriving DecidableEq

/-- `ip_gen_id`. Its `id++` reads and writes. -/
def IdPoint.code : IdPoint → Instr IdMutex Empty UInt16 IdPoint
  | .lock => .lock .ipGenIdMutex .read
  | .read => .access fun id => some (id, .write id)
  | .write ret => .access fun _ => some (ret + 1, .unlock ret)
  | .unlock ret => .unlock .ipGenIdMutex (.returns ret)
  | .returns _ => .ret

def idProgram : Program IdMutex Empty UInt16 Unit IdPoint := ⟨fun _ => .lock, IdPoint.code⟩

abbrev IdThreads (T : Type) : Type := State T IdMutex Empty UInt16 IdPoint

namespace IdPoint

/-- The mutexes a point is reached with. -/
def held : IdPoint → Set IdMutex
  | .lock | .returns _ => ∅
  | _ => {.ipGenIdMutex}

/-- The number the call will return, once it is taken. -/
def answer : IdPoint → Option UInt16
  | .unlock ret | .returns ret => some ret
  | _ => none

/-- What was read is still there when it is written. -/
def Knows : IdPoint → UInt16 → Prop
  | .write ret, id => id = ret
  | _, _ => True

end IdPoint

/-- `ip_gen_id` as it is meant: the number there was, and the next one for the next call. -/
def IdDoes (_ : Unit) (id ret id' : UInt16) : Prop := ret = id ∧ id' = id + 1

/-- It is what `ipGenId` does. -/
theorem ipGenId_eq_done {s t : Stack} {ret : UInt16} :
    ipGenId.run s = .done t ret ↔ IdDoes () s.ipId ret t.ipId ∧ t = { s with ipId := t.ipId } := by
  have hrun : ipGenId.run s = .done { s with ipId := s.ipId + 1 } s.ipId := rfl
  rw [hrun]
  refine ⟨fun h => ?_, ?_⟩
  · cases h
    exact ⟨⟨rfl, rfl⟩, rfl⟩
  · rintro ⟨⟨rfl, hid⟩, ht⟩
    rw [ht, hid]

theorem idProgram_respects : Respects idProgram IdPoint.held where
  entry _ := rfl
  code p := by
    cases p with
    | read | write ret =>
      intro d d' q hq
      cases Option.some.inj hq
      rfl
    | _ => simp [idProgram, IdPoint.code, Instr.Respects, IdPoint.held]

section Runs

variable {T : Type} [DecidableEq T] {s s' : IdThreads T} {t : T}

/-- Every thread stands at a point that is right about the counter. -/
structure IdInvariant (s : IdThreads T) : Prop where
  disciplined : Disciplined idProgram IdPoint.held s
  knows : Outline IdPoint.Knows s

omit [DecidableEq T] in
theorem IdInvariant.start (id : UInt16) : IdInvariant (State.start id : IdThreads T) :=
  ⟨Disciplined.start id, fun _ _ h => by cases h⟩

theorem IdInvariant.step (hs : IdInvariant s) (h : Step idProgram s t s') : IdInvariant s' := by
  refine ⟨hs.disciplined.step idProgram_respects h, ?_⟩
  refine hs.knows.step (R := fun p => p.code.Leads) (fun p => p.code.next_leads) hs.disciplined h
    (fun _ => trivial) ?_ ?_ ?_
  · intro p d d' q hcode _
    cases p with
    | lock | unlock ret =>
      obtain ⟨rfl, rfl⟩ := hcode
      trivial
    | read =>
      cases Option.some.inj hcode
      rfl
    | write ret =>
      cases Option.some.inj hcode
      trivial
    | returns => exact hcode.elim
  · intro p c
    exact c.elim
  · intro p q u r d' hst hcode hu hr hknows
    cases r with
    | write ret =>
      cases p with
      | write ret' =>
        -- both would hold the mutex
        have hboth : u = t := hs.disciplined.eq_of_held (m := .ipGenIdMutex)
          (by rw [hr]; rfl) (by rw [hst]; rfl)
        exact absurd hboth hu
      | read =>
        cases Option.some.inj hcode
        exact hknows
      | lock | unlock =>
        obtain ⟨rfl, -⟩ := hcode
        exact hknows
      | returns => exact hcode.elim
    | _ => trivial

omit [DecidableEq T] in
/-- **`ip_gen_id` takes effect at once**: no update of the counter is lost. -/
theorem idThreads_linearizes :
    Linearizes idProgram (IdInvariant (T := T)) (fun _ _ => True) id IdDoes (fun _ => ())
      IdPoint.answer where
  entry _ := ⟨rfl, rfl⟩
  code {s t p d q} hs _ hst hcode := by
    refine ⟨rfl, ?_⟩
    cases p with
    | lock | unlock =>
      obtain ⟨rfl, rfl⟩ := hcode
      exact Or.inl ⟨rfl, rfl⟩
    | read =>
      cases Option.some.inj hcode
      exact Or.inl ⟨rfl, rfl⟩
    | write ret =>
      cases Option.some.inj hcode
      have hid : s.data = ret := hs.knows t _ hst
      exact Or.inr ⟨rfl, ret, rfl, hid.symm, by rw [id, hid, id]⟩
    | returns => exact hcode.elim
  ret {p} hp := by
    cases p with
    | returns => rfl
    | _ => cases hp

omit [DecidableEq T] in
/-- A sequence of calls returns consecutive numbers. -/
theorem IdDoes.numbers_of_run {id id' : UInt16} {tr : List (Runs.Record UInt16 (T × Unit × UInt16))}
    (h : Runs.Run (fun a (l : T × Unit × UInt16) b => IdDoes l.2.1 a l.2.2 b) id tr id') :
    tr.map (fun r => r.label.2.2) =
      (List.range tr.length).map (fun k => id + UInt16.ofNat k) ∧
    id' = id + UInt16.ofNat tr.length := by
  induction h with
  | nil => simp
  | @snoc tr a b l _ hl ih =>
    obtain ⟨hret, hid⟩ := hl
    obtain ⟨hnumbers, rfl⟩ := ih
    refine ⟨?_, ?_⟩
    · rw [List.map_append, hnumbers, List.length_append, List.length_singleton, List.range_succ,
        List.map_append, List.map_singleton, List.map_singleton, hret]
    · rw [hid, List.length_append, List.length_singleton, UInt16.ofNat_add, UInt16.add_assoc]
      rfl

end Runs

end Suika
