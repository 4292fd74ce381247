import NativeTls.Identity.Pkcs8
import Mathlib.Tactic.Ring

/-!
# Concurrent `from_pkcs8` calls and the key containers they share

`gen_container_name` draws `native-tls-N` from a `static COUNTER: AtomicUsize` of the process,
and `from_pkcs8` then opens the container of that name, creating it when `acquire` fails, and
imports its key into it.  The key provider is shared by every thread and every process of the
user.  Here calls run interleaved, one step at a time:

* a `Call` is a thread's call past its leaf, made by the process `pid` with a key blob, and its
  `Phase` is where it stands in lines 132–155;
* `Sys` holds every process's counter, the provider and every call's phase; `Sys.step` moves one
  call by one `Action`, and `Sys.run` plays a schedule.

`run_solo` says that a call run alone does to the provider exactly what `importIntoContainer`
does, so the interleaved model agrees with `fromPkcs8`.  Over every schedule:

* `drawn_run`: the calls of one process hold distinct counts, all below the process's counter;
* `containers_one_process`: with one process, as long as its counter stays within
  `2 ^ usize::BITS`, live identities are bound to distinct containers and each container holds
  the key its identity was created with;
* `containers_two_processes`: two processes both draw `native-tls-0`, and the second call
  opens the first one's container and replaces its key.

The one fact about names the proofs need is `containerName_injective`: distinct counts give
distinct names, which rests on reading the decimal digits of `Nat.repr` back.
-/

namespace NativeTls

/-! ### Distinct counts give distinct names -/

/-- The number a list of decimal digits spells. -/
def digitsValue : List Char → Nat
  | [] => 0
  | d :: ds => (d.toNat - 48) * 10 ^ ds.length + digitsValue ds

theorem digitChar_toNat : ∀ k < 10, (Nat.digitChar k).toNat - 48 = k := by decide

theorem digitsValue_toDigitsCore : ∀ fuel n ds, n < fuel →
    digitsValue (Nat.toDigitsCore 10 fuel n ds) = n * 10 ^ ds.length + digitsValue ds
  | 0, _, _, h => absurd h (Nat.not_lt_zero _)
  | fuel + 1, n, ds, h => by
    have hd := digitChar_toNat (n % 10) (Nat.mod_lt _ (by omega))
    have hn := Nat.div_add_mod n 10
    have hstep : Nat.toDigitsCore 10 (fuel + 1) n ds =
        if n / 10 = 0 then Nat.digitChar (n % 10) :: ds
        else Nat.toDigitsCore 10 fuel (n / 10) (Nat.digitChar (n % 10) :: ds) := rfl
    rw [hstep]
    split_ifs with h0
    · have hlt : n % 10 = n := Nat.mod_eq_of_lt (by omega)
      rw [hlt] at hd
      simp only [digitsValue, hlt, hd]
    · rw [digitsValue_toDigitsCore fuel (n / 10) _ (by omega)]
      simp only [digitsValue, hd, List.length_cons, pow_succ]
      calc n / 10 * (10 ^ ds.length * 10) + (n % 10 * 10 ^ ds.length + digitsValue ds)
          = (10 * (n / 10) + n % 10) * 10 ^ ds.length + digitsValue ds := by ring
        _ = n * 10 ^ ds.length + digitsValue ds := by rw [hn]

/-- **`format!("native-tls-{}", n)` names each count differently.** -/
theorem containerName_injective {a b : Nat} (h : containerName a = containerName b) : a = b := by
  have hdigits (n : Nat) : (toString n).data = Nat.toDigitsCore 10 (n + 1) n [] := rfl
  have hs : (toString a).data = (toString b).data := by
    simpa [containerName] using congrArg String.data h
  rw [hdigits, hdigits] at hs
  simpa [digitsValue_toDigitsCore, digitsValue] using congrArg digitsValue hs

/-! ### Calls, one step at a time -/

/-- A thread's `from_pkcs8` call once its leaf has parsed: the process that makes it, and the
key blob it imports. -/
structure Call where
  pid : Nat
  key : List UInt8

/-- Where a call stands.  `n` is the count `gen_container_name` drew; the call's container is
`(genContainerName bits n).1`. -/
inductive Phase
  /-- Before line 132. -/
  | start
  /-- Line 132 done. -/
  | named (n : Nat)
  /-- `options.acquire` failed; `new_keyset(true).acquire` comes next. -/
  | creating (n : Nat)
  /-- The container is open. -/
  | opened (n : Nat)
  /-- The key `k` is in the container; lines 143–155 remain, which touch only the call's store. -/
  | imported (n : Nat) (k : Key)
  /-- Returned `Ok`: an identity bound to the container, created with the key `k`. -/
  | live (n : Nat) (k : Key)
  /-- Returned `Err`. -/
  | failed
  deriving DecidableEq, Repr

/-- The steps of a call. -/
inductive Action
  | draw
  | acquire
  | newKeyset
  | importKey
  | bind
  | fail
  deriving DecidableEq, Repr

/-- Call `call` takes the step `action`. -/
structure Event where
  call : Nat
  action : Action
  deriving DecidableEq, Repr

/-- One step of a call from its phase: the phase after, and the provider after.  `counter` is
its process's `COUNTER`; `bind` is lines 143–155 succeeding and `fail` one of them failing. -/
def Phase.step (plat : Platform) (key : List UInt8) (counter : Nat) (provider : KeyProvider) :
    Phase → Action → Option (Phase × KeyProvider)
  | .start, .draw => some (.named counter, provider)
  | .named n, .acquire =>
    some (if provider.acquire (genContainerName plat.usizeBits n).1 then .opened n else .creating n,
      provider)
  | .creating n, .newKeyset =>
    match provider.newKeyset (genContainerName plat.usizeBits n).1 with
    | .ok provider' => some (.opened n, provider')
    | .error _ => some (.failed, provider)
  | .opened n, .importKey =>
    match plat.importPkcs8Pem key with
    | .ok k => some (.imported n k, provider.importKey (genContainerName plat.usizeBits n).1 k)
    | .error _ => some (.failed, provider)
  | .imported n k, .bind => some (.live n k, provider)
  | .imported _ _, .fail => some (.failed, provider)
  | _, _ => none

/-- Every process's `COUNTER`, the key provider, and every call's phase. -/
structure Sys where
  counter : Nat → Nat
  provider : KeyProvider
  phase : Nat → Phase

/-- No process has drawn a name, and no call has started. -/
def Sys.init (provider : KeyProvider) : Sys := ⟨fun _ => 0, provider, fun _ => .start⟩

/-- Call `e.call` takes the step `e.action`; a draw is `COUNTER.fetch_add(1)` in its process. -/
def Sys.step (plat : Platform) (calls : Nat → Call) (s : Sys) (e : Event) : Option Sys :=
  let call := calls e.call
  (Phase.step plat call.key (s.counter call.pid) s.provider (s.phase e.call) e.action).map
    fun (phase, provider) =>
      { counter := if e.action = .draw then
            Function.update s.counter call.pid (genContainerName plat.usizeBits (s.counter call.pid)).2
          else s.counter
        provider
        phase := Function.update s.phase e.call phase }

/-- A schedule played step after step; `none` when one of its steps cannot be taken. -/
def Sys.run (plat : Platform) (calls : Nat → Call) : Sys → List Event → Option Sys
  | s, [] => some s
  | s, e :: es => (s.step plat calls e).bind (Sys.run plat calls · es)

/-- The count a call holds, from its draw until it returns. -/
def Phase.number : Phase → Option Nat
  | .named n | .creating n | .opened n | .imported n _ | .live n _ => some n
  | .start | .failed => none

/-- The count and the key of a call that has imported its key. -/
def Phase.holds : Phase → Option (Nat × Key)
  | .imported n k | .live n k => some (n, k)
  | _ => none

/-- A call that holds a key holds its count. -/
theorem Phase.number_of_holds {ph : Phase} {n : Nat} {k : Key} (h : ph.holds = some (n, k)) :
    ph.number = some n := by
  cases ph <;> cases h <;> rfl

/-! ### What one step does -/

section Step

variable {plat : Platform} {key : List UInt8} {counter : Nat} {provider provider' : KeyProvider}
  {ph ph' : Phase} {a : Action}

/-- **Every step a call can take.** -/
theorem Phase.step_cases (h : Phase.step plat key counter provider ph a = some (ph', provider')) :
    (ph = .start ∧ a = .draw ∧ ph' = .named counter ∧ provider' = provider) ∨
    (∃ n, ph = .named n ∧ a = .acquire ∧ (ph' = .opened n ∨ ph' = .creating n) ∧
      provider' = provider) ∨
    (∃ n, ph = .creating n ∧ a = .newKeyset ∧
      (ph' = .opened n ∧ provider' = provider.set (genContainerName plat.usizeBits n).1 none ∨
        ph' = .failed ∧ provider' = provider)) ∨
    (∃ n, ph = .opened n ∧ a = .importKey ∧
      ((∃ k, ph' = .imported n k ∧
          provider' = provider.set (genContainerName plat.usizeBits n).1 (some k)) ∨
        ph' = .failed ∧ provider' = provider)) ∨
    (∃ n k, ph = .imported n k ∧ a ≠ .draw ∧ (ph' = .live n k ∨ ph' = .failed) ∧
      provider' = provider) := by
  cases ph <;> cases a <;> simp only [Phase.step, reduceCtorEq] at h
  case start.draw => cases h; exact .inl ⟨rfl, rfl, rfl, rfl⟩
  case named.acquire n =>
    split_ifs at h <;> cases h
    · exact .inr (.inl ⟨n, rfl, rfl, .inl rfl, rfl⟩)
    · exact .inr (.inl ⟨n, rfl, rfl, .inr rfl, rfl⟩)
  case creating.newKeyset n =>
    refine .inr (.inr (.inl ⟨n, rfl, rfl, ?_⟩))
    unfold KeyProvider.newKeyset at h
    split_ifs at h <;> cases h
    · exact .inr ⟨rfl, rfl⟩
    · exact .inl ⟨rfl, rfl⟩
  case opened.importKey n =>
    refine .inr (.inr (.inr (.inl ⟨n, rfl, rfl, ?_⟩)))
    split at h <;> cases h
    · exact .inl ⟨_, rfl, rfl⟩
    · exact .inr ⟨rfl, rfl⟩
  case imported.bind n k =>
    cases h; exact .inr (.inr (.inr (.inr ⟨n, k, rfl, by decide, .inl rfl, rfl⟩)))
  case imported.fail n k =>
    cases h; exact .inr (.inr (.inr (.inr ⟨n, k, rfl, by decide, .inr rfl, rfl⟩)))

/-- A step keeps the call's count, drops it on returning, or draws the counter's value. -/
theorem Phase.number_step (h : Phase.step plat key counter provider ph a = some (ph', provider')) :
    ph'.number = ph.number ∨ ph'.number = none ∨
      (ph = .start ∧ a = .draw ∧ ph'.number = some counter) := by
  rcases Phase.step_cases h with ⟨rfl, rfl, rfl, -⟩ | ⟨n, rfl, -, rfl | rfl, -⟩ |
    ⟨n, rfl, -, ⟨rfl, -⟩ | ⟨rfl, -⟩⟩ | ⟨n, rfl, -, ⟨k, rfl, -⟩ | ⟨rfl, -⟩⟩ |
    ⟨n, k, rfl, -, rfl | rfl, -⟩ <;> simp [Phase.number]

/-- A step changes the provider only at the container of the call's own count, and only while
the call opens it or imports into it. -/
theorem Phase.provider_step
    (h : Phase.step plat key counter provider ph a = some (ph', provider')) :
    provider' = provider ∨ ∃ n, ph.number = some n ∧
      ∀ m, m ≠ (genContainerName plat.usizeBits n).1 →
        provider'.containers m = provider.containers m := by
  rcases Phase.step_cases h with ⟨-, -, -, rfl⟩ | ⟨n, -, -, -, rfl⟩ |
    ⟨n, rfl, -, ⟨-, rfl⟩ | ⟨-, rfl⟩⟩ | ⟨n, rfl, -, ⟨k, -, rfl⟩ | ⟨-, rfl⟩⟩ |
    ⟨n, k, -, -, -, rfl⟩
  all_goals first
    | exact .inl rfl
    | exact .inr ⟨n, rfl, fun m hm => KeyProvider.set_containers_of_ne _ _ hm⟩

/-- A call that holds a key after a step held it before, with the provider unchanged, or has
just imported it into its container. -/
theorem Phase.holds_step (h : Phase.step plat key counter provider ph a = some (ph', provider'))
    {n : Nat} {k : Key} (hk : ph'.holds = some (n, k)) :
    (ph.holds = some (n, k) ∧ provider' = provider) ∨
      provider'.containers (genContainerName plat.usizeBits n).1 = some (some k) := by
  rcases Phase.step_cases h with ⟨-, -, rfl, -⟩ | ⟨_, -, -, rfl | rfl, -⟩ |
    ⟨_, -, -, ⟨rfl, -⟩ | ⟨rfl, -⟩⟩ | ⟨_, -, -, ⟨k', rfl, rfl⟩ | ⟨rfl, -⟩⟩ |
    ⟨_, _, rfl, -, rfl | rfl, rfl⟩ <;> simp_all [Phase.holds]

end Step

section SysStep

variable {plat : Platform} {calls : Nat → Call} {s s' : Sys} {e : Event}

/-- **What a step of the system does**: call `e.call` takes its step, every other call stays
where it is, and only a draw moves a counter, that of the call's process, by one. -/
theorem Sys.step_eq_some (h : s.step plat calls e = some s') :
    ∃ ph provider, Phase.step plat (calls e.call).key (s.counter (calls e.call).pid) s.provider
        (s.phase e.call) e.action = some (ph, provider) ∧
      s'.provider = provider ∧ s'.phase e.call = ph ∧
      (∀ j, j ≠ e.call → s'.phase j = s.phase j) ∧
      s'.counter = if e.action = .draw then
        Function.update s.counter (calls e.call).pid (s.counter (calls e.call).pid + 1)
        else s.counter := by
  obtain ⟨⟨ph, provider⟩, hph, rfl⟩ := Option.map_eq_some'.mp h
  exact ⟨ph, provider, hph, rfl, by simp, fun j hj => by simp [hj], rfl⟩

theorem Sys.counter_le_step (h : s.step plat calls e = some s') (q : Nat) :
    s.counter q ≤ s'.counter q := by
  obtain ⟨-, -, -, -, -, -, hc⟩ := Sys.step_eq_some h
  rw [hc]
  split_ifs
  · by_cases hq : q = (calls e.call).pid
    · subst hq; simp
    · simp [hq]
  · exact le_rfl

theorem Sys.counter_le_run : ∀ {s s' : Sys} {es : List Event},
    Sys.run plat calls s es = some s' → ∀ q, s.counter q ≤ s'.counter q
  | _, _, [], h, _ => by cases h; exact le_rfl
  | _, _, _ :: _, h, q => by
    obtain ⟨s₁, h₁, h₂⟩ := Option.bind_eq_some.mp h
    exact (Sys.counter_le_step h₁ q).trans (Sys.counter_le_run h₂ q)

end SysStep

/-! ### The calls of one process hold distinct counts -/

/-- The calls of a process hold counts below its counter, no two the same. -/
structure Drawn (calls : Nat → Call) (s : Sys) : Prop where
  lt_counter : ∀ i n, (s.phase i).number = some n → n < s.counter (calls i).pid
  distinct : ∀ i j n, i ≠ j → (calls i).pid = (calls j).pid → (s.phase i).number = some n →
    (s.phase j).number ≠ some n

theorem drawn_init (calls : Nat → Call) (provider : KeyProvider) :
    Drawn calls (Sys.init provider) :=
  ⟨fun _ _ h => (by cases h), fun _ _ _ _ _ h => (by cases h)⟩

theorem drawn_step {plat : Platform} {calls : Nat → Call} {s s' : Sys} {e : Event}
    (hd : Drawn calls s) (h : s.step plat calls e = some s') : Drawn calls s' := by
  obtain ⟨ph, provider, hph, -, hi, hj, hc⟩ := Sys.step_eq_some h
  have hnum := Phase.number_step hph
  -- a count held after the step was held before, or is the one just drawn
  have hcount : ∀ j n, (s'.phase j).number = some n →
      ((s.phase j).number = some n ∧ s.counter (calls j).pid ≤ s'.counter (calls j).pid) ∨
      (j = e.call ∧ n = s.counter (calls j).pid ∧ n < s'.counter (calls j).pid) := by
    intro j n hn
    by_cases hje : j = e.call
    · subst hje
      rw [hi] at hn
      rcases hnum with hsame | hnone | ⟨-, hdraw, hnew⟩
      · exact .inl ⟨hsame ▸ hn, Sys.counter_le_step h _⟩
      · rw [hnone] at hn; cases hn
      · rw [hnew] at hn
        cases hn
        exact .inr ⟨rfl, rfl, by simp [hc, hdraw, genContainerName]⟩
    · exact .inl ⟨hj j hje ▸ hn, Sys.counter_le_step h _⟩
  constructor
  · intro j n hn
    rcases hcount j n hn with ⟨hold, hle⟩ | ⟨-, -, hlt⟩
    · exact (hd.lt_counter j n hold).trans_le hle
    · exact hlt
  · intro i j n hij hp hn hn'
    rcases hcount i n hn with ⟨hold, -⟩ | ⟨hie, hin, -⟩ <;>
      rcases hcount j n hn' with ⟨hold', -⟩ | ⟨hje, hjn, -⟩
    · exact hd.distinct i j n hij hp hold hold'
    · exact absurd (hp ▸ hd.lt_counter i n hold) (by omega)
    · exact absurd (hp ▸ hd.lt_counter j n hold') (by omega)
    · exact hij (hie.trans hje.symm)

/-- **Over every schedule, the calls of one process hold distinct counts**, below its counter. -/
theorem drawn_run {plat : Platform} {calls : Nat → Call} :
    ∀ {s s' : Sys} {es : List Event}, Drawn calls s → Sys.run plat calls s es = some s' →
      Drawn calls s'
  | _, _, [], hd, h => by cases h; exact hd
  | _, _, _ :: _, hd, h => by
    obtain ⟨s₁, h₁, h₂⟩ := Option.bind_eq_some.mp h
    exact drawn_run (drawn_step hd h₁) h₂

/-! ### One process: every live identity keeps its key -/

section OneProcess

variable {plat : Platform} {calls : Nat → Call} {p : Nat} (hp : ∀ i, (calls i).pid = p)
include hp

/-- Within the counter's range, two counts of the process name two containers. -/
theorem name_ne_of_drawn {s : Sys} (hd : Drawn calls s) (hbound : s.counter p ≤ 2 ^ plat.usizeBits)
    {i j n m : Nat} (hij : i ≠ j) (hn : (s.phase i).number = some n)
    (hm : (s.phase j).number = some m) :
    (genContainerName plat.usizeBits n).1 ≠ (genContainerName plat.usizeBits m).1 := by
  have hn' := hp i ▸ hd.lt_counter i n hn
  have hm' := hp j ▸ hd.lt_counter j m hm
  have hnm : n ≠ m := fun hnm => hd.distinct i j n hij ((hp i).trans (hp j).symm) hn (hnm ▸ hm)
  intro heq
  have := containerName_injective heq
  rw [Nat.mod_eq_of_lt (by omega), Nat.mod_eq_of_lt (by omega)] at this
  exact hnm this

/-- Every call that has imported its key finds it in its container. -/
def KeysKept (plat : Platform) (s : Sys) : Prop :=
  ∀ i n k, (s.phase i).holds = some (n, k) →
    s.provider.containers (genContainerName plat.usizeBits n).1 = some (some k)

omit hp in
theorem keysKept_init (provider : KeyProvider) : KeysKept plat (Sys.init provider) :=
  fun _ _ _ h => by cases h

theorem keysKept_step {s s' : Sys} {e : Event} (hd : Drawn calls s) (hk : KeysKept plat s)
    (h : s.step plat calls e = some s') (hbound : s'.counter p ≤ 2 ^ plat.usizeBits) :
    KeysKept plat s' := by
  obtain ⟨ph, provider, hph, hprov, hi, hj, -⟩ := Sys.step_eq_some h
  have hbound' := (Sys.counter_le_step h p).trans hbound
  intro j n k hjk
  by_cases hje : j = e.call
  · subst hje
    rw [hi] at hjk
    rcases Phase.holds_step hph hjk with ⟨hold, rfl⟩ | hnew
    · rw [hprov]; exact hk _ n k hold
    · rw [hprov]; exact hnew
  · rw [hj j hje] at hjk
    rcases Phase.provider_step hph with rfl | ⟨m, hm, hframe⟩
    · rw [hprov]; exact hk j n k hjk
    · rw [hprov, hframe _ (name_ne_of_drawn hp hd hbound' hje (Phase.number_of_holds hjk) hm)]
      exact hk j n k hjk

theorem keysKept_run : ∀ {s s' : Sys} {es : List Event}, Drawn calls s → KeysKept plat s →
    Sys.run plat calls s es = some s' → s'.counter p ≤ 2 ^ plat.usizeBits → KeysKept plat s'
  | _, _, [], _, hk, h, _ => by cases h; exact hk
  | _, _, _ :: _, hd, hk, h, hbound => by
    obtain ⟨s₁, h₁, h₂⟩ := Option.bind_eq_some.mp h
    exact keysKept_run (drawn_step hd h₁)
      (keysKept_step hp hd hk h₁ ((Sys.counter_le_run h₂ p).trans hbound)) h₂ hbound

/-- **With one process, live identities are bound to distinct containers, each holding the key
the identity was created with**, over every schedule of its threads' calls, from any provider,
as long as the process has drawn at most `2 ^ usize::BITS` names. -/
theorem containers_one_process {provider : KeyProvider} {es : List Event} {s : Sys}
    (hrun : Sys.run plat calls (Sys.init provider) es = some s)
    (hbound : s.counter p ≤ 2 ^ plat.usizeBits) :
    (∀ i j n n' k k', i ≠ j → s.phase i = .live n k → s.phase j = .live n' k' →
      (genContainerName plat.usizeBits n).1 ≠ (genContainerName plat.usizeBits n').1) ∧
    (∀ i n k, s.phase i = .live n k →
      s.provider.containers (genContainerName plat.usizeBits n).1 = some (some k)) := by
  have hd := drawn_run (drawn_init calls provider) hrun
  have hk := keysKept_run hp (drawn_init calls provider) (keysKept_init provider) hrun hbound
  refine ⟨fun i j n n' k k' hij hi hj => ?_, fun i n k hi => hk i n k (by simp [hi, Phase.holds])⟩
  exact name_ne_of_drawn hp hd hbound hij (by simp [hi, Phase.number]) (by simp [hj, Phase.number])

end OneProcess

/-- Two calls of one process, each with its own key. -/
def oneProcessCalls (i : Nat) : Call := ⟨0, [i.toUInt8]⟩

/-- Both calls draw, then open, create and fill their containers in the opposite order. -/
def interleaving : List Event :=
  [⟨0, .draw⟩, ⟨1, .draw⟩, ⟨1, .acquire⟩, ⟨0, .acquire⟩, ⟨0, .newKeyset⟩,
    ⟨1, .newKeyset⟩, ⟨1, .importKey⟩, ⟨0, .importKey⟩, ⟨0, .bind⟩, ⟨1, .bind⟩]

theorem containers_one_process_interleaved :
    ∃ s, Sys.run okPlatform oneProcessCalls (Sys.init ⟨fun _ => none⟩) interleaving = some s ∧
      s.phase 0 = .live 0 ⟨[0]⟩ ∧ s.phase 1 = .live 1 ⟨[1]⟩ ∧
      s.provider.containers (genContainerName 64 0).1 = some (some ⟨[0]⟩) ∧
      s.provider.containers (genContainerName 64 1).1 = some (some ⟨[1]⟩) := by
  obtain ⟨s, hs, h0, h1, hc⟩ : ∃ s, Sys.run okPlatform oneProcessCalls
      (Sys.init ⟨fun _ => none⟩) interleaving = some s ∧ s.phase 0 = .live 0 ⟨[0]⟩ ∧
      s.phase 1 = .live 1 ⟨[1]⟩ ∧ s.counter 0 = 2 := ⟨_, rfl, rfl, rfl, rfl⟩
  have hkeys := (containers_one_process (fun _ => rfl : ∀ i, (oneProcessCalls i).pid = 0) hs
    (by rw [hc]; decide)).2
  exact ⟨s, hs, h0, h1, hkeys 0 0 _ h0, hkeys 1 1 _ h1⟩

/-! ### Two processes -/

/-- Call 0 in process 0 and call 1 in process 1, with different keys. -/
def twoProcessCalls (i : Nat) : Call := ⟨i, [i.toUInt8]⟩

/-- Process 0's call runs to the end, then process 1's. -/
def oneAfterOther : List Event :=
  [⟨0, .draw⟩, ⟨0, .acquire⟩, ⟨0, .newKeyset⟩, ⟨0, .importKey⟩, ⟨0, .bind⟩,
    ⟨1, .draw⟩, ⟨1, .acquire⟩, ⟨1, .importKey⟩, ⟨1, .bind⟩]

theorem containers_two_processes :
    ¬ ∀ (plat : Platform) (calls : Nat → Call) (provider : KeyProvider) (es : List Event) (s : Sys),
      Sys.run plat calls (Sys.init provider) es = some s →
      (∀ i j n n' k k', i ≠ j → s.phase i = .live n k → s.phase j = .live n' k' →
        (genContainerName plat.usizeBits n).1 ≠ (genContainerName plat.usizeBits n').1) ∧
      (∀ i n k, s.phase i = .live n k →
        s.provider.containers (genContainerName plat.usizeBits n).1 = some (some k)) := by
  intro hclaim
  obtain ⟨s, hs, h0, hkey⟩ : ∃ s, Sys.run okPlatform twoProcessCalls
      (Sys.init ⟨fun _ => none⟩) oneAfterOther = some s ∧ s.phase 0 = .live 0 ⟨[0]⟩ ∧
      s.provider.containers (genContainerName 64 0).1 = some (some ⟨[1]⟩) :=
    ⟨_, rfl, rfl, rfl⟩
  have := (hclaim _ _ _ _ s hs).2 0 0 _ h0
  rw [show okPlatform.usizeBits = 64 from rfl, hkey] at this
  cases this

/-! ### One call alone is `importIntoContainer` -/

/-- **A call run alone does to the provider what `from_pkcs8` does**: some schedule of its own
steps draws the name `gen_container_name` gives, leaves the provider `importIntoContainer`
leaves, and reaches `imported` exactly when that succeeds. -/
theorem run_solo (plat : Platform) (calls : Nat → Call) (s : Sys) (i : Nat)
    (hstart : s.phase i = .start) :
    ∃ es s', (∀ e ∈ es, e.call = i) ∧ Sys.run plat calls s es = some s' ∧
      s'.counter = Function.update s.counter (calls i).pid
        (genContainerName plat.usizeBits (s.counter (calls i).pid)).2 ∧
      s'.provider = (importIntoContainer plat s.provider
        (genContainerName plat.usizeBits (s.counter (calls i).pid)).1 (calls i).key).2 ∧
      ((importIntoContainer plat s.provider
        (genContainerName plat.usizeBits (s.counter (calls i).pid)).1 (calls i).key).1 = .ok () ↔
          ∃ k, s'.phase i = .imported (s.counter (calls i).pid) k) := by
  simp only [importIntoContainer, KeyProvider.openOrCreate_ok]
  by_cases hacq : s.provider.acquire (genContainerName plat.usizeBits (s.counter (calls i).pid)).1
  · refine ⟨[⟨i, .draw⟩, ⟨i, .acquire⟩, ⟨i, .importKey⟩], ?_⟩
    rcases himp : plat.importPkcs8Pem (calls i).key with e | k <;>
    simp only [Sys.run, Sys.step, Phase.step, hstart, hacq, himp, Option.map_some',
      Option.some_bind, Function.update_same, ↓reduceIte, reduceCtorEq, Function.update_idem] <;>
    simp
  · refine ⟨[⟨i, .draw⟩, ⟨i, .acquire⟩, ⟨i, .newKeyset⟩, ⟨i, .importKey⟩], ?_⟩
    rcases himp : plat.importPkcs8Pem (calls i).key with e | k <;>
    simp only [Sys.run, Sys.step, Phase.step, hstart, hacq, himp, Option.map_some',
      Option.some_bind, Function.update_same, ↓reduceIte, reduceCtorEq, Function.update_idem,
      KeyProvider.newKeyset, Bool.false_eq_true] <;>
    simp

theorem run_solo_from_init :
    ∃ es s, Sys.run okPlatform oneProcessCalls (Sys.init ⟨fun _ => none⟩) es = some s ∧
      s.provider.containers (genContainerName 64 0).1 = some (some ⟨[0]⟩) := by
  obtain ⟨es, s, -, hrun, -, hprov, -⟩ :=
    run_solo okPlatform oneProcessCalls (Sys.init ⟨fun _ => none⟩) 0 rfl
  exact ⟨es, s, hrun, by rw [hprov]; rfl⟩

end NativeTls
