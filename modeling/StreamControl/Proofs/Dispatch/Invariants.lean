import StreamControl.Proofs.Dispatch.Calls

/-!
# Invariants of the dispatcher

The dispatcher changes the state only through validators, actions and sinks.  What each of these
keeps is therefore kept by every run, also by one that ends early (`Registry.keeps_dispatch`).  To
show that an invariant of the state and the calls is kept, it is enough to look at one call at a
time (`Processor.keeps_traced`).
-/

namespace StreamControl

/-! ## Steps -/

namespace Step

variable {σ τ α β : Type}

/-- A step that starts where `inv` holds leaves a state where it holds. -/
def Keeps (inv : σ → Prop) (x : Step σ α) : Prop := ∀ s, inv s → inv (x s).state

/-- A step leaves a view of the state as it is. -/
def Leaves (f : σ → τ) (x : Step σ α) : Prop := ∀ s, f (x s).state = f s

variable {inv : σ → Prop}

theorem keeps_pure (a : α) : Keeps inv (pure a : Step σ α) := by
  intro s hs
  exact hs

theorem keeps_emit (e : Event) : Keeps inv (emit e) := by
  intro s hs
  exact hs

theorem keeps_bind {x : Step σ α} {f : α → Step σ β} (hx : x.Keeps inv)
    (hf : ∀ a, (f a).Keeps inv) : (x >>= f).Keeps inv := by
  intro s hs
  rw [bind_apply]
  exact hf (x s).result (x s).state (hx s hs)

/-- An invariant survives putting steps together. -/
theorem lifts_keeps : Lifts (fun _ (x _ : Step σ _) => x.Keeps inv) where
  pure := keeps_pure
  emit := keeps_emit
  bind := keeps_bind

theorem leaves_pure {f : σ → τ} (a : α) : (pure a : Step σ α).Leaves f := fun _ => rfl

theorem leaves_emit {f : σ → τ} (e : Event) : (emit e : Step σ Unit).Leaves f := fun _ => rfl

theorem leaves_bind {f : σ → τ} {x : Step σ α} {g : α → Step σ β} (hx : x.Leaves f)
    (hg : ∀ a, (g a).Leaves f) : (x >>= g).Leaves f := by
  intro s
  rw [bind_apply]
  exact (hg _ _).trans (hx s)

/-- A noted step keeps what holds again once its call is added. -/
theorem keeps_noting {inv : Traced σ → Prop} {call : α → Call σ} {x : Step σ α}
    (h : ∀ s calls, inv ⟨s, calls⟩ → inv ⟨(x s).state, calls ++ [call (x s).result]⟩) :
    (x.noting call).Keeps inv := by
  intro t ht
  exact h t.state t.calls ht

end Step

/-! ## Parts -/

variable {σ τ : Type}

/-- The validators and the action of a route keep an invariant. -/
structure Route.Keeps (inv : σ → Prop) (r : Route σ) : Prop where
  checks : ∀ v ∈ r.chain.validators, ∀ m, (v.check m).Keeps inv
  action : ∀ m, (r.action m).Keeps inv

/-- The validators and the action of a route leave a view of the state as it is. -/
structure Route.Leaves (f : σ → τ) (r : Route σ) : Prop where
  checks : ∀ v ∈ r.chain.validators, ∀ m, (v.check m).Leaves f
  action : ∀ m, (r.action m).Leaves f

/-- All parts of a processor keep an invariant. -/
structure Processor.Keeps (inv : σ → Prop) (p : Processor σ) : Prop where
  routes : ∀ branch r, p.route? branch = some r → r.Keeps inv
  sink : ∀ m reply, (p.sink m reply).Keeps inv

/-! ## Runs -/

section Runs

variable {inv : σ → Prop}

theorem Route.Keeps.alike {r : Route σ} (h : r.Keeps inv) :
    r.Alike (fun _ x _ => x.Keeps inv) r where
  command := rfl
  checks := List.forall₂_same.2 fun v hv => ⟨rfl, h.checks v hv⟩
  action := h.action

theorem Processor.Keeps.alike {p : Processor σ} (h : p.Keeps inv) :
    p.Alike (fun _ x _ => x.Keeps inv) p where
  name := rfl
  routes branch := by
    rcases hroute : p.route? branch with _ | r
    · exact .none
    · exact .some (h.routes branch r hroute).alike
  sink := h.sink

/-- What the parts of all processors keep, every dispatch keeps. -/
theorem Registry.keeps_dispatch {r : Registry σ} (h : ∀ p ∈ r.processors, p.Keeps inv)
    (batch : List Message) : (r.dispatch batch).Keeps inv :=
  lift_dispatch Step.lifts_keeps (List.forall₂_same.2 fun p hp => (h p hp).alike) batch

end Runs

/-! ## Invariants of the state and the calls -/

/-- To keep an invariant of the state and the calls, each part must keep it when its own call is
added. -/
theorem Processor.keeps_traced {inv : Traced σ → Prop} {p : Processor σ}
    (hchecks : ∀ branch r, p.route? branch = some r → ∀ v ∈ r.chain.validators, ∀ m s calls,
      inv ⟨s, calls⟩ → inv ⟨(v.check m s).state,
        calls ++ [.validator p.name m v (v.check m s).result]⟩)
    (hactions : ∀ branch r, p.route? branch = some r → ∀ m s calls,
      inv ⟨s, calls⟩ → inv ⟨(r.action m s).state,
        calls ++ [.action p.name m r.action (r.action m s).result]⟩)
    (hsink : ∀ m reply s calls, inv ⟨s, calls⟩ → inv ⟨(p.sink m reply s).state,
      calls ++ [.sink p.name m reply (p.sink m reply s).result]⟩) :
    p.traced.Keeps inv := by
  refine ⟨?_, fun m reply => Step.keeps_noting (hsink m reply)⟩
  intro branch traced htraced
  rw [route?_traced] at htraced
  obtain ⟨r, hr, rfl⟩ := Option.map_eq_some_iff.1 htraced
  refine ⟨?_, fun m => Step.keeps_noting (hactions branch r hr m)⟩
  intro v hv m
  obtain ⟨w, hw, rfl⟩ := List.mem_map.1 hv
  exact Step.keeps_noting (hchecks branch r hr w hw m)

/-- A dispatch adds its calls to those made before. -/
theorem Registry.keeps_calls {inv : Traced σ → Prop} {r : Registry σ}
    (h : ∀ p ∈ r.processors, p.traced.Keeps inv) (batch : List Message) {s : σ}
    {calls : List (Call σ)} (hinv : inv ⟨s, calls⟩) :
    inv ⟨(r.dispatch batch s).state, calls ++ r.calls batch s⟩ := by
  have hkeeps : (r.traced.dispatch batch).Keeps inv := by
    refine keeps_dispatch ?_ batch
    intro q hq
    obtain ⟨p, hp, rfl⟩ := List.mem_map.1 hq
    exact h p hp
  have hafter := hkeeps ⟨s, calls⟩ hinv
  rw [notes_dispatch r batch s calls] at hafter
  exact hafter

/-- A view that no part of a processor touches stays what it is. -/
theorem Processor.keeps_view {p : Processor σ} {view : σ → τ}
    (hsink : ∀ m reply, (p.sink m reply).Leaves view)
    (hroutes : ∀ branch route, p.route? branch = some route → route.Leaves view) (kept : τ) :
    p.Keeps fun s => view s = kept where
  routes branch route hroute :=
    { checks := fun v hv m s hkept => ((hroutes branch route hroute).checks v hv m s).trans hkept
      action := fun m s hkept => ((hroutes branch route hroute).action m s).trans hkept }
  sink m reply s hkept := (hsink m reply s).trans hkept

/-- What the parts of a processor keep, each of its messages keeps. -/
theorem Processor.Keeps.handle {p : Processor σ} {inv : σ → Prop} (h : p.Keeps inv) (m : Message) :
    (p.handle m).Keeps inv := lift_handle Step.lifts_keeps h.alike m

theorem Processor.Keeps.handleBatch {p : Processor σ} {inv : σ → Prop} (h : p.Keeps inv)
    (batch : List Message) : (p.handleBatch batch).Keeps inv :=
  lift_handleBatch Step.lifts_keeps h.alike batch

/-! ## Batches in a row -/

/-- The state and the calls after batches were dispatched one after the other. -/
def Registry.afterBatches (r : Registry σ) (batches : List (List Message)) (t : Traced σ) :
    Traced σ :=
  batches.foldl
    (fun t batch => ⟨(r.dispatch batch t.state).state, t.calls ++ r.calls batch t.state⟩) t

/-- What every part keeps with its own call, any number of batches keeps. -/
theorem Registry.keeps_afterBatches {inv : Traced σ → Prop} {r : Registry σ}
    (h : ∀ p ∈ r.processors, p.traced.Keeps inv) (batches : List (List Message)) {t : Traced σ}
    (hinv : inv t) : inv (r.afterBatches batches t) := by
  induction batches generalizing t with
  | nil => exact hinv
  | cons batch batches ih => exact ih (keeps_calls h batch hinv)

end StreamControl
