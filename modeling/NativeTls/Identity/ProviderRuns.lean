import NativeTls.Identity.Containers

/-!
# What every schedule of `from_pkcs8` calls does to the key provider

The key provider is the user's, shared with every other program that keeps keys in it.
`Identity/Containers.lean` showed that the calls of one process keep each other's keys while its
counter stays within `2 ^ usize::BITS`.  This file says what a schedule does to the rest of the
provider, and what happens past that bound.

* `provider_untouched`: over every schedule of any calls of any processes, a container is
  changed only if its name is `native-tls-N` for a count `N` some process has drawn.  Every
  other container, another program's or a name no process has reached yet, is as it was.
* `containers_wrap`: `COUNTER.fetch_add` wraps, so the count `2 ^ usize::BITS` names
  `native-tls-0` again.  For every word size there is a schedule of one process, call `0`
  imports its key and stays live, and the call that draws `2 ^ usize::BITS` opens the same
  container and replaces that key.  The bound of `containers_one_process` cannot be dropped.
-/

namespace NativeTls

/-! ### Schedules laid end to end -/

section Run

variable {plat : Platform} {calls : Nat → Call}

theorem Sys.run_append (s : Sys) (es es' : List Event) :
    Sys.run plat calls s (es ++ es') =
      (Sys.run plat calls s es).bind (Sys.run plat calls · es') := by
  induction es generalizing s with
  | nil => rfl
  | cons e es ih =>
    rw [List.cons_append]
    simp only [Sys.run, ih, Option.bind_assoc]

end Run

/-! ### Containers no process has named -/

section Frame

variable {plat : Platform} {calls : Nat → Call}

/-- A step changes no container outside the names of the counts drawn before it. -/
theorem provider_frame_step {s s' : Sys} {e : Event} (hd : Drawn calls s)
    (h : s.step plat calls e = some s') {name : String}
    (hname : ∀ i n, n < s.counter (calls i).pid →
      name ≠ (genContainerName plat.usizeBits n).1) :
    s'.provider.containers name = s.provider.containers name := by
  obtain ⟨ph, provider, hph, hprov, -, -, -⟩ := Sys.step_eq_some h
  rw [hprov]
  rcases Phase.provider_step hph with rfl | ⟨m, hm, hframe⟩
  · rfl
  · exact hframe name (hname _ m (hd.lt_counter _ m hm))

theorem provider_frame_run : ∀ {s s' : Sys} {es : List Event}, Drawn calls s →
    Sys.run plat calls s es = some s' → ∀ {name : String},
      (∀ i n, n < s'.counter (calls i).pid → name ≠ (genContainerName plat.usizeBits n).1) →
      s'.provider.containers name = s.provider.containers name
  | _, _, [], _, h, _, _ => by cases h; rfl
  | _, _, _ :: _, hd, h, _, hname => by
    obtain ⟨s₁, h₁, h₂⟩ := Option.bind_eq_some.mp h
    rw [provider_frame_run (drawn_step hd h₁) h₂ hname]
    exact provider_frame_step hd h₁ fun i n hn => hname i n
      (hn.trans_le ((Sys.counter_le_step h₁ _).trans (Sys.counter_le_run h₂ _)))

/-- **No schedule touches a container it has not named**: over every schedule of any calls of
any processes, from any provider, a container whose name is not `native-tls-N` for a count `N`
below the counter of a calling process holds what it held before. -/
theorem provider_untouched {provider : KeyProvider} {es : List Event} {s : Sys}
    (hrun : Sys.run plat calls (Sys.init provider) es = some s) {name : String}
    (hname : ∀ i n, n < s.counter (calls i).pid →
      name ≠ (genContainerName plat.usizeBits n).1) :
    s.provider.containers name = provider.containers name :=
  provider_frame_run (drawn_init calls provider) hrun hname

end Frame

/-- After the two calls of `interleaving`, the next name, `native-tls-2`, is still free. -/
theorem provider_untouched_next :
    ∃ s, Sys.run okPlatform oneProcessCalls (Sys.init ⟨fun _ => none⟩) interleaving =
      some s ∧ s.provider.containers "native-tls-2" = none := by
  obtain ⟨s, hs, hc⟩ : ∃ s, Sys.run okPlatform oneProcessCalls (Sys.init ⟨fun _ => none⟩)
      interleaving = some s ∧ s.counter 0 = 2 := ⟨_, rfl, rfl⟩
  refine ⟨s, hs, provider_untouched hs fun i n hn => ?_⟩
  have : n = 0 ∨ n = 1 := by
    change n < s.counter 0 at hn
    omega
  rcases this with rfl | rfl <;> decide

/-! ### One transition at a time -/

section Transitions

variable {plat : Platform} {key : List UInt8} {counter : Nat} {provider : KeyProvider}

theorem Phase.step_start_draw :
    Phase.step plat key counter provider .start .draw = some (.named counter, provider) := rfl

theorem Phase.step_named_acquire (n : Nat) :
    Phase.step plat key counter provider (.named n) .acquire =
      some (if provider.acquire (genContainerName plat.usizeBits n).1 then .opened n
        else .creating n, provider) := rfl

theorem Phase.step_creating_newKeyset (n : Nat) :
    Phase.step plat key counter provider (.creating n) .newKeyset =
      match provider.newKeyset (genContainerName plat.usizeBits n).1 with
      | .ok provider' => some (.opened n, provider')
      | .error _ => some (.failed, provider) := rfl

theorem Phase.step_opened_importKey (n : Nat) :
    Phase.step plat key counter provider (.opened n) .importKey =
      match plat.importPkcs8Pem key with
      | .ok k => some (.imported n k, provider.importKey (genContainerName plat.usizeBits n).1 k)
      | .error _ => some (.failed, provider) := rfl

theorem Phase.step_imported_bind (n : Nat) (k : Key) :
    Phase.step plat key counter provider (.imported n k) .bind = some (.live n k, provider) := rfl

end Transitions

/-! ### Past `2 ^ usize::BITS` names -/

section Wrap

variable {plat : Platform} {calls : Nat → Call}

/-- A call run alone to the end: it draws its count, opens or creates its container, imports a
key the platform accepts into it and returns; nothing else changes. -/
theorem run_call {s : Sys} {i : Nat} {k : Key} (hstart : s.phase i = .start)
    (himp : plat.importPkcs8Pem (calls i).key = .ok k) :
    ∃ es s', Sys.run plat calls s es = some s' ∧
      s'.counter = Function.update s.counter (calls i).pid (s.counter (calls i).pid + 1) ∧
      s'.provider.containers (genContainerName plat.usizeBits (s.counter (calls i).pid)).1 =
        some (some k) ∧
      s'.phase i = .live (s.counter (calls i).pid) k ∧
      ∀ j, j ≠ i → s'.phase j = s.phase j := by
  by_cases hacq : s.provider.acquire (genContainerName plat.usizeBits (s.counter (calls i).pid)).1
    <;> [refine ⟨[⟨i, .draw⟩, ⟨i, .acquire⟩, ⟨i, .importKey⟩, ⟨i, .bind⟩], ?_⟩;
      refine ⟨[⟨i, .draw⟩, ⟨i, .acquire⟩, ⟨i, .newKeyset⟩, ⟨i, .importKey⟩, ⟨i, .bind⟩],
        ?_⟩]
    <;> simp only [Sys.run, Sys.step, hstart, Function.update_same, Option.map_some',
      Option.some_bind, Phase.step_start_draw, Phase.step_named_acquire,
      Phase.step_creating_newKeyset, Phase.step_opened_importKey, Phase.step_imported_bind, hacq,
      himp, ↓reduceIte, reduceCtorEq, Function.update_idem, KeyProvider.newKeyset,
      Bool.false_eq_true]
    <;> exact ⟨_, rfl, by simp [genContainerName], by simp [KeyProvider.importKey],
      Function.update_same _ _ _, fun j hj => Function.update_noteq hj _ _⟩

/-- Calls of process `0` that only draw: each takes its count and goes no further. -/
theorem run_draws (hpid : ∀ j, (calls j).pid = 0) : ∀ (m start : Nat) (s : Sys),
    (∀ j, start ≤ j → j < start + m → s.phase j = .start) →
    ∃ s', Sys.run plat calls s ((List.range' start m).map fun j => ⟨j, .draw⟩) = some s' ∧
      s'.counter 0 = s.counter 0 + m ∧ s'.provider = s.provider ∧
      ∀ j, j < start ∨ start + m ≤ j → s'.phase j = s.phase j
  | 0, _, s, _ => ⟨s, rfl, rfl, rfl, fun _ _ => rfl⟩
  | m + 1, start, s, hfresh => by
    let s₁ : Sys := ⟨Function.update s.counter 0 (s.counter 0 + 1), s.provider,
      Function.update s.phase start (.named (s.counter 0))⟩
    have hstep : s.step plat calls ⟨start, .draw⟩ = some s₁ := by
      simp [s₁, Sys.step, hfresh start le_rfl (by omega), Phase.step_start_draw, hpid,
        genContainerName]
    obtain ⟨s', hrun, hc, hp, hph⟩ := run_draws hpid m (start + 1) s₁ fun j h₁ h₂ => by
      simp only [s₁, Function.update_noteq (by omega : j ≠ start)]
      exact hfresh j (by omega) (by omega)
    refine ⟨s', ?_, ?_, hp, fun j hj => ?_⟩
    · rw [List.range'_succ, List.map_cons, Sys.run, hstep, Option.some_bind]
      exact hrun
    · simp only [hc, s₁, Function.update_same]
      omega
    · simp only [hph j (by omega), s₁, Function.update_noteq (by omega : j ≠ start)]

end Wrap

/-- One process: call `0` imports `key₀`, every later call imports `key₁`. -/
def wrapCalls (key₀ key₁ : List UInt8) (i : Nat) : Call :=
  ⟨0, if i = 0 then key₀ else key₁⟩

/-- **Past `2 ^ usize::BITS` names a live identity loses its key.**  For every word size and
every two keys the platform imports, there is a schedule of one process where call `0` is live
with the first key, calls `1` to `2 ^ usize::BITS - 1` draw their names, and call
`2 ^ usize::BITS`, whose name is `native-tls-0` again, goes live with the second key: the
container of call `0` now holds it. -/
theorem containers_wrap (plat : Platform) {key₀ key₁ : List UInt8} {k₀ k₁ : Key}
    (h₀ : plat.importPkcs8Pem key₀ = .ok k₀) (h₁ : plat.importPkcs8Pem key₁ = .ok k₁) :
    ∃ es s, Sys.run plat (wrapCalls key₀ key₁) (Sys.init ⟨fun _ => none⟩) es = some s ∧
      s.counter 0 = 2 ^ plat.usizeBits + 1 ∧
      s.phase 0 = .live 0 k₀ ∧
      s.phase (2 ^ plat.usizeBits) = .live (2 ^ plat.usizeBits) k₁ ∧
      s.provider.containers (genContainerName plat.usizeBits 0).1 = some (some k₁) := by
  have hN : 1 ≤ 2 ^ plat.usizeBits := Nat.one_le_two_pow
  obtain ⟨es₁, s₁, hrun₁, hc₁, -, hph₁, hfr₁⟩ :=
    @run_call plat (wrapCalls key₀ key₁) (Sys.init ⟨fun _ => none⟩) 0 k₀ rfl h₀
  obtain ⟨s₂, hrun₂, hc₂, -, hph₂⟩ := @run_draws plat (wrapCalls key₀ key₁) (fun _ => rfl)
    (2 ^ plat.usizeBits - 1) 1 s₁ fun j hj _ => hfr₁ j (by omega)
  have hcount : s₂.counter 0 = 2 ^ plat.usizeBits := by
    rw [hc₂, hc₁]
    simp only [wrapCalls, Sys.init, Function.update_same]
    omega
  have hkey :
      plat.importPkcs8Pem (wrapCalls key₀ key₁ (2 ^ plat.usizeBits)).key = .ok k₁ := by
    simpa [wrapCalls, (by omega : 2 ^ plat.usizeBits ≠ 0)] using h₁
  obtain ⟨es₃, s₃, hrun₃, hc₃, hk₃, hph₃, hfr₃⟩ :=
    @run_call plat (wrapCalls key₀ key₁) s₂ (2 ^ plat.usizeBits) k₁
      ((hph₂ _ (.inr (by omega))).trans (hfr₁ _ (by omega))) hkey
  have hname : (genContainerName plat.usizeBits (2 ^ plat.usizeBits)).1 =
      (genContainerName plat.usizeBits 0).1 := by
    simp [genContainerName]
  refine ⟨es₁ ++ ((List.range' 1 (2 ^ plat.usizeBits - 1)).map fun j => ⟨j, .draw⟩) ++ es₃,
    s₃, ?_, ?_, ?_, ?_, ?_⟩
  · rw [Sys.run_append, Sys.run_append, hrun₁, Option.some_bind, hrun₂, Option.some_bind,
      hrun₃]
  · rw [hc₃]
    change Function.update s₂.counter 0 (s₂.counter 0 + 1) 0 = _
    rw [Function.update_same, hcount]
  · rw [hfr₃ 0 (by omega), hph₂ 0 (.inl (by omega)), hph₁]
    rfl
  · rw [hph₃]
    exact congrArg (Phase.live · k₁) hcount
  · rw [← hname, ← hcount]
    exact hk₃

/-- On a 64-bit platform where every key imports, call `0` is live with `[0]` while its container
holds `[1]`. -/
theorem containers_wrap_ok :
    ∃ es s, Sys.run okPlatform (wrapCalls [0] [1]) (Sys.init ⟨fun _ => none⟩) es = some s ∧
      s.counter 0 = 2 ^ okPlatform.usizeBits + 1 ∧
      s.phase 0 = .live 0 ⟨[0]⟩ ∧
      s.phase (2 ^ okPlatform.usizeBits) = .live (2 ^ okPlatform.usizeBits) ⟨[1]⟩ ∧
      s.provider.containers (genContainerName okPlatform.usizeBits 0).1 = some (some ⟨[1]⟩) :=
  containers_wrap okPlatform rfl rfl


end NativeTls
