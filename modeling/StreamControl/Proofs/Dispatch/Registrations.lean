import Mathlib.Data.List.Induction
import StreamControl.Proofs.Dispatch.Frontier

/-!
# Registrations

Processors are registered one after the other, and a name may come up again.  The first processor of
each name is kept, in the order of the calls; every later call of that name is refused and changes
nothing (`Registry.registered_once`).  What is registered is also what reports on a batch, in the same
order.

* `register_of_taken`, `register_of_free`: one call.
* `names_ofCalls`, `find?_ofCalls`: any number of calls, by induction from the last one.
-/

namespace StreamControl

namespace Registry

variable {σ τ : Type}

/-- Registers processors one after the other; gives the result of each call and the registry in the
end. -/
def registerAll (r : Registry σ) :
    List (Processor σ) → Step τ (List (Except DuplicateProcessor Unit) × Registry σ)
  | [] => return ([], r)
  | p :: ps => do
    let first ← r.register p
    let others ← registerAll first.2 ps
    return (first.1 :: others.1, others.2)

/-- The registry that some calls make of the empty one. -/
def ofCalls (ps : List (Processor σ)) (s : τ) : Registry σ :=
  ((empty.registerAll ps : Step τ _) s).result.2

/-! ## One call -/

/-- A name that is taken is refused, and nothing happens. -/
theorem register_of_taken {r : Registry σ} {p : Processor σ} (htaken : p.name ∈ r.names) (s : τ) :
    (r.register p : Step τ _) s = ⟨(.error ⟨p.name⟩, r), s, []⟩ := by
  have hadd : r.add p = .error ⟨p.name⟩ := add_eq_error_iff.2 ⟨htaken, rfl⟩
  rw [register, hadd]
  rfl

/-- A processor with a name of its own takes the last place, and that is reported. -/
theorem register_of_free {r : Registry σ} {p : Processor σ} (hfree : p.name ∉ r.names) (s : τ) :
    ∃ after : Registry σ, after.processors = r.processors ++ [p] ∧
      (r.register p : Step τ _) s =
        ⟨(.ok (), after), s, [.processorRegistered p.name p.commands]⟩ := by
  rcases hadd : r.add p with e | after
  · exact absurd (add_eq_error_iff.1 hadd).1 hfree
  · refine ⟨after, processors_add hadd, ?_⟩
    rw [register, hadd]
    rfl

/-- A registration leaves the state alone. -/
theorem state_register (r : Registry σ) (p : Processor σ) (s : τ) :
    ((r.register p : Step τ _) s).state = s := by
  by_cases htaken : p.name ∈ r.names
  · rw [register_of_taken htaken]
  · obtain ⟨after, -, hcall⟩ := register_of_free htaken s
    rw [hcall]

/-! ## Several calls -/

/-- Calls in a row go on with the registry that those before left. -/
theorem result_registerAll_append (r : Registry σ) (ps qs : List (Processor σ)) (s : τ) :
    let first := ((r.registerAll ps : Step τ _) s).result
    let second := ((first.2.registerAll qs : Step τ _) s).result
    ((r.registerAll (ps ++ qs) : Step τ _) s).result = (first.1 ++ second.1, second.2) := by
  induction ps generalizing r with
  | nil => rfl
  | cons p ps ih =>
    have hnext := ih ((r.register p : Step τ _) s).result.2
    dsimp only at hnext ⊢
    rw [List.cons_append, registerAll, registerAll, Step.bind_apply, Step.bind_apply,
      Step.bind_apply, Step.bind_apply, state_register, hnext]
    rfl

/-- Each call gives one result. -/
theorem length_registerAll (r : Registry σ) (ps : List (Processor σ)) (s : τ) :
    ((r.registerAll ps : Step τ _) s).result.1.length = ps.length := by
  induction ps generalizing r with
  | nil => rfl
  | cons p ps ih =>
    rw [registerAll, Step.bind_apply, Step.bind_apply, state_register]
    exact congrArg (· + 1) (ih _)

/-- The last call works on what the calls before left. -/
theorem ofCalls_concat (ps : List (Processor σ)) (p : Processor σ) (s : τ) :
    ofCalls (ps ++ [p]) s = (((ofCalls ps s).register p : Step τ _) s).result.2 := by
  rw [ofCalls, result_registerAll_append]
  rfl

/-- One more element changes the list without repetitions only if it is new. -/
theorem eraseDups_concat (xs : List String) (x : String) :
    (xs ++ [x]).eraseDups = if x ∈ xs then xs.eraseDups else xs.eraseDups ++ [x] := by
  rw [List.eraseDups_append, List.removeAll, List.filter_singleton]
  by_cases hmem : x ∈ xs
  · simp [hmem]
  · simp [hmem, List.eraseDups_cons]

/-- The names are those of the calls, each at its first place. -/
theorem names_ofCalls (ps : List (Processor σ)) (s : τ) :
    (ofCalls ps s).names = (ps.map (·.name)).eraseDups := by
  -- calls add at the end, so the induction takes the last call off
  induction ps using List.reverseRecOn with
  | nil => rfl
  | append_singleton ps p ih =>
    rw [ofCalls_concat, List.map_append, List.map_singleton, eraseDups_concat, ← ih]
    by_cases htaken : p.name ∈ (ofCalls ps s).names
    · rw [register_of_taken htaken, if_pos (List.mem_eraseDups.1 (ih ▸ htaken))]
    · obtain ⟨next, hnext, hcall⟩ := register_of_free htaken s
      rw [hcall, if_neg fun hmem => htaken (ih ▸ List.mem_eraseDups.2 hmem), names, hnext,
        List.map_append]
      rfl

/-- Under a name there is the processor of the first call with that name. -/
theorem find?_ofCalls (ps : List (Processor σ)) (s : τ) (name : String) :
    (ofCalls ps s).find? name = ps.find? (·.name == name) := by
  induction ps using List.reverseRecOn with
  | nil => rfl
  | append_singleton ps p ih =>
    rw [ofCalls_concat, List.find?_append, ← ih]
    by_cases htaken : p.name ∈ (ofCalls ps s).names
    · rw [register_of_taken htaken]
      dsimp only
      rcases hfound : (ofCalls ps s).find? name with _ | q
      · -- no processor has the name, so this one does not have it either
        have hne : ¬ p.name = name := by
          rintro rfl
          obtain ⟨q, hq, hname⟩ := List.mem_map.1 htaken
          exact List.find?_eq_none.1 hfound q hq (by simp [hname])
        simp [hne]
      · rfl
    · obtain ⟨next, hnext, hcall⟩ := register_of_free htaken s
      rw [hcall, find?, hnext, List.find?_append]
      rfl

/-! ## Reports -/

/-- Reports come from the registered processors in order, and each counts the whole batch. -/
theorem reports_of_dispatch {r : Registry σ} {batch : List Message} {s : σ}
    {reports : List (String × Report)} (hdone : (r.dispatch batch s).result = .ok reports) :
    reports.map (·.1) = r.names ∧ ∀ entry ∈ reports, entry.2.received = batch.length := by
  have hstart : (Traced.start s).Delivered := fun _ h => absurd h List.not_mem_nil
  have hstops := dispatchTo_stops batch r.processors hstart
  have hrun : (dispatchTo batch (r.processors.map Processor.traced) (.start s)).result =
      (r.dispatch batch s).result := congrArg Ran.result (r.notes_dispatch batch s [])
  unfold Ran.Ends at hstops
  rw [hrun, hdone] at hstops
  exact hstops.2.2

/-! ## Main result -/

/-- **Every name is registered once, for the processor that came first.**  Whatever is registered in
whatever order, the names of the registry are those of the calls without repetitions, in the order in
which each came up first, and under each name there is the processor of its first call.  A call is
refused exactly if its name is registered already, and then leaves the registry as it was; any other
adds its processor at the end.  A dispatch that succeeds reports once for each name, in that order,
and every report counts the whole batch. -/
theorem registered_once (ps : List (Processor σ)) (s : τ) :
    (ofCalls ps s).names = (ps.map (·.name)).eraseDups ∧ (ofCalls ps s).names.Nodup ∧
      (∀ name, (ofCalls ps s).find? name = ps.find? (·.name == name)) ∧
      (∀ earlier p later, ps = earlier ++ p :: later →
        let before := ofCalls earlier s
        let result := ((empty.registerAll ps : Step τ _) s).result.1[earlier.length]?
        (result = some (.error ⟨p.name⟩) ↔ p.name ∈ before.names) ∧
          if p.name ∈ before.names then ofCalls (earlier ++ [p]) s = before
          else result = some (.ok ()) ∧
            (ofCalls (earlier ++ [p]) s).processors = before.processors ++ [p]) ∧
      ∀ batch t reports, ((ofCalls ps s).dispatch batch t).result = .ok reports →
        reports.map (·.1) = (ofCalls ps s).names ∧
          ∀ entry ∈ reports, entry.2.received = batch.length := by
  refine ⟨names_ofCalls ps s, (ofCalls ps s).distinct, find?_ofCalls ps s, ?_, fun _ _ _ =>
    reports_of_dispatch⟩
  rintro earlier p later rfl before result
  -- the result of a call is found behind those of the calls before it
  have hresult : result = some ((before.register p : Step τ _) s).result.1 := by
    have hplace := length_registerAll (empty : Registry σ) earlier s
    have happend := result_registerAll_append (empty : Registry σ) earlier (p :: later) s
    dsimp only at happend
    dsimp only [result]
    rw [happend, ← hplace, List.getElem?_append_right (Nat.le_refl _), Nat.sub_self]
    rfl
  by_cases htaken : p.name ∈ before.names
  · rw [hresult, if_pos htaken, ofCalls_concat, register_of_taken htaken]
    exact ⟨iff_of_true rfl htaken, rfl⟩
  · obtain ⟨next, hnext, hcall⟩ := register_of_free htaken s
    rw [hresult, if_neg htaken, ofCalls_concat, hcall]
    refine ⟨iff_of_false (fun h => ?_) htaken, rfl, hnext⟩
    cases h

/-- The second processor of a name is refused, and the one behind it takes the second place. -/
example :
    let named (name : String) : Processor Unit := ⟨name, none, none, Sink.logging⟩
    (ofCalls [named "insert", named "insert", named "audit"] ()).names = ["insert", "audit"] := rfl

end Registry

end StreamControl
