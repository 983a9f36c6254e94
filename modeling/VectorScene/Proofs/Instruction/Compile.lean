import VectorScene.Instruction.Compile

/-!
# Compiling, by recursion on the instruction

`Instruction.compile` runs an instruction with a stack of pending steps. `runSteps_run` says what an
instruction on top of any stack does: it is run by `Instruction.run`, each of its nodes is counted,
and then the rest of the stack is looked at, unless the run failed. The step that a frame leaves on
the stack is met when everything within the frame has been run.

`visits` is the sequence of nodes that the stack machine takes up. Its length is what the machine
counts (`visited_runSteps`), and for a run that comes to its end it is the sequence of all nodes of
the instruction, each before those below it (`visits_run`).
-/

namespace VectorScene.Instruction

/-! ## Running -/

theorem run_within (m : Affine) (i : Instruction) (pen : Pen) :
    (within m i).run pen =
      match i.run { pen with transform := m } with
      | .ok () pen' => .ok () { pen' with transform := pen.transform }
      | .error e pen' => .error e pen' := by
  show EStateM.bind i.run (fun _ => Pen.setTransform pen.transform) { pen with transform := m } = _
  rw [EStateM.bind]
  cases i.run { pen with transform := m } <;> rfl

theorem run_seq (a b : Instruction) (pen : Pen) :
    (seq a b).run pen =
      match a.run pen with
      | .ok () pen' => b.run pen'
      | .error e pen' => .error e pen' := by
  show EStateM.bind a.run (fun _ => b.run) pen = _
  rw [EStateM.bind]
  cases a.run pen <;> rfl

theorem exists_of_run_within {m : Affine} {i : Instruction} {pen pen' : Pen}
    (h : (within m i).run pen = .ok () pen') :
    ∃ inner, i.run { pen with transform := m } = .ok () inner ∧
      pen' = { inner with transform := pen.transform } := by
  rw [run_within] at h
  cases hi : i.run { pen with transform := m } with
  | error e inner => rw [hi] at h; cases h
  | ok _ inner =>
    rw [hi] at h; cases h
    exact ⟨inner, rfl, rfl⟩

theorem exists_of_run_seq {a b : Instruction} {pen pen' : Pen} (h : (seq a b).run pen = .ok () pen') :
    ∃ middle, a.run pen = .ok () middle ∧ b.run middle = .ok () pen' := by
  rw [run_seq] at h
  cases ha : a.run pen with
  | error e middle => rw [ha] at h; cases h
  | ok _ middle =>
    rw [ha] at h
    exact ⟨middle, rfl, h⟩

/-- An instruction on top of the stack is run before the rest of the stack is looked at. -/
theorem runSteps_run (i : Instruction) (steps : List Step) (visited : Nat) (pen : Pen) :
    runSteps (.run i :: steps) visited pen =
      match i.run pen with
      | .ok () pen => runSteps steps (visited + i.nodeCount) pen
      | .error e _ => .error e := by
  induction i generalizing steps visited pen with
  | empty => rw [runSteps]; rfl
  | act a =>
    cases ha : a.perform pen with
    | error e pen' => simp only [runSteps, run, ha]
    | ok _ pen' => simp only [runSteps, run, nodeCount, ha]
  | within m i ih =>
    rw [runSteps, ih, run_within]
    cases i.run { pen with transform := m } with
    | error e pen' => rfl
    | ok _ pen' =>
      simp only [runSteps, nodeCount]
      rw [Nat.add_right_comm, Nat.add_assoc]
  | seq a b iha ihb =>
    rw [runSteps, iha, run_seq]
    cases a.run pen with
    | error e pen' => rfl
    | ok _ pen' =>
      have hcount : visited + 1 + a.nodeCount + b.nodeCount = visited + (seq a b).nodeCount := by
        rw [nodeCount]; omega
      simp only [ihb, hcount]

/-! ## The nodes that are visited -/

/-- The nodes of an instruction, each before those below it. -/
def nodes : Instruction → List Instruction
  | empty => [empty]
  | act a => [act a]
  | within m i => within m i :: i.nodes
  | seq a b => seq a b :: (a.nodes ++ b.nodes)

/-- The nodes that are taken up when the pending steps are run, in order. If one of them fails, it
is the last. -/
def visits : List Step → Pen → List Instruction
  | [], _ => []
  | .restore m :: steps, pen => visits steps { pen with transform := m }
  | .run empty :: steps, pen => empty :: visits steps pen
  | .run (act a) :: steps, pen =>
    act a :: match a.perform pen with
      | .ok () pen => visits steps pen
      | .error _ _ => []
  | .run (within m i) :: steps, pen =>
    within m i :: visits (.run i :: .restore pen.transform :: steps) { pen with transform := m }
  | .run (seq a b) :: steps, pen => seq a b :: visits (.run a :: .run b :: steps) pen
termination_by steps => steps.foldr (fun step n => step.cost + n) 0
decreasing_by all_goals simp [Step.cost, nodeCount]; try omega

/-- The number that a run of pending steps counts is the number of nodes that it visits. -/
theorem visited_runSteps {steps : List Step} {visited : Nat} {pen pen' : Pen} {n : Nat}
    (h : runSteps steps visited pen = .ok (pen', n)) : n = visited + (visits steps pen).length := by
  fun_induction runSteps steps visited pen with
  | case1 visited pen => simp_all [visits]
  | case2 m steps visited pen ih => rw [visits, ih h]
  | case3 steps visited pen ih => rw [visits, ih h, List.length_cons]; omega
  | case4 a steps visited pen pen₁ ha ih =>
    simp only [visits, ha, ih h, List.length_cons]; omega
  | case5 => cases h
  | case6 m i steps visited pen ih => rw [visits, ih h, List.length_cons]; omega
  | case7 a b steps visited pen ih => rw [visits, ih h, List.length_cons]; omega

/-- A run that comes to its end visits every node, and then what is pending below it. -/
theorem visits_run {i : Instruction} {pen pen' : Pen} (h : i.run pen = .ok () pen')
    (steps : List Step) : visits (.run i :: steps) pen = i.nodes ++ visits steps pen' := by
  induction i generalizing pen pen' steps with
  | empty => cases h; rw [visits]; rfl
  | act a =>
    rw [run] at h
    rw [visits, h]; rfl
  | within m i ih =>
    obtain ⟨inner, hi, rfl⟩ := exists_of_run_within h
    rw [visits, ih hi, visits, nodes, List.cons_append]
  | seq a b iha ihb =>
    obtain ⟨middle, ha, hb⟩ := exists_of_run_seq h
    rw [visits, iha ha, ihb hb, nodes, List.cons_append, List.append_assoc]

/-! ## Compiling -/

theorem runSteps_of_run_ok {i : Instruction} {pen : Pen} (h : i.run {} = .ok () pen) :
    runSteps [.run i] 0 {} = .ok (pen, i.nodeCount) := by
  rw [runSteps_run, h]
  simp only [runSteps, Nat.zero_add]

theorem compile_of_run_ok {i : Instruction} {pen : Pen} (h : i.run {} = .ok () pen) :
    i.compile = .ok { pen, visited := i.nodeCount } := by
  rw [compile, runSteps_of_run_ok h]; rfl

theorem compile_of_run_error {i : Instruction} {e : GeometryError} {pen : Pen}
    (h : i.run {} = .error e pen) : i.compile = .error e := by
  rw [compile, runSteps_run, h]; rfl

/-- The path of an instruction is what a new pen has drawn when it has run it. -/
theorem construct_eq (i : Instruction) :
    i.construct =
      match i.run {} with
      | .ok () pen => .ok pen.build
      | .error e _ => .error e := by
  cases h : i.run {} with
  | error e pen => rw [construct, compile_of_run_error h]; rfl
  | ok u pen => rw [construct, compile_of_run_ok h]; rfl

/-- Compiling is running with a new pen: it gives the path that the pen has drawn, or the failure of
the run. Unless the run fails, each node is visited once, each before those below it, and the number
of visits is reported. -/
theorem compile_eq_run (i : Instruction) :
    match i.run {} with
    | .ok () pen =>
      i.construct = .ok pen.build ∧ visits [.run i] {} = i.nodes ∧
        i.compile = .ok { pen, visited := (visits [.run i] {}).length } ∧
        i.compile.map Compilation.messages =
          .ok (pen.messages ++ [.pathConstructed pen.build.figureCount i.nodeCount])
    | .error e _ => i.construct = .error e := by
  have hpath := construct_eq i
  cases h : i.run {} with
  | error e pen => rw [h] at hpath; exact hpath
  | ok u pen =>
    rw [h] at hpath
    have hcount : i.nodeCount = (visits [.run i] {}).length := by
      rw [visited_runSteps (runSteps_of_run_ok h), Nat.zero_add]
    refine ⟨hpath, ?_, ?_, ?_⟩
    · rw [visits_run h, visits, List.append_nil]
    · rw [compile_of_run_ok h, hcount]
    · rw [compile_of_run_ok h]; rfl

end VectorScene.Instruction
