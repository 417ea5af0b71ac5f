import AiboosterEngine.Monitoring.Queue

/-!
# Testing a group

`TestNow`, `testNow` and `testParents` of `common/monitoring/outbound_monitoring.go`. The
members of a group, and the outbounds that depend on one, are finite trees: nothing
contains itself.
-/

namespace AiboosterEngine.Monitoring

open List

/-- An outbound or a group, over its members or over what depends on it. -/
inductive Tree (Tag : Type) where
  | node (tag : Tag) (isGroup : Bool) (below : List (Tree Tag))

section
variable {Tag : Type} [DecidableEq Tag] (cfg : Config)

/-- `testNow` on an outbound. -/
def request (priority : Bool) (s : State Tag) (tag : Tag) : State Tag :=
  (enqueueTask cfg ⟨tag, s.cycleSeq, priority, none⟩ s).2

mutual

def testNow (priority : Bool) : Tree Tag → State Tag → State Tag
  | .node tag isGroup members, s =>
      if isGroup then testMembers members s else request cfg priority s tag

def testMembers : List (Tree Tag) → State Tag → State Tag
  | [], s => s
  | member :: rest, s => testMembers rest (testNow false member s)

end

mutual

def testParents (first : Bool) : Tree Tag → State Tag → State Tag
  | .node tag isGroup dependents, s =>
    testDependents dependents (if !isGroup && !first then request cfg true s tag else s)

def testDependents : List (Tree Tag) → State Tag → State Tag
  | [], s => s
  | dependent :: rest, s => testDependents rest (testParents false dependent s)

end

/-- `members` and `dependents` are the group over its members and over what depends on it. -/
def TestNow (members dependents : Tree Tag) (s : State Tag) : State Tag :=
  testNow cfg true members (testParents cfg true dependents s)

mutual

/-- The outbounds that are members at any depth. -/
def Tree.members : Tree Tag → List Tag
  | .node tag isGroup members => if isGroup then membersOf members else [tag]

def membersOf : List (Tree Tag) → List Tag
  | [] => []
  | member :: rest => member.members ++ membersOf rest

end

mutual

def Tree.dependents (first : Bool) : Tree Tag → List Tag
  | .node tag isGroup dependents =>
    (if !isGroup && !first then [tag] else []) ++ dependentsOf dependents

def dependentsOf : List (Tree Tag) → List Tag
  | [] => []
  | dependent :: rest => dependent.dependents false ++ dependentsOf rest

end

mutual

theorem testNow_eq (tree : Tree Tag) (s : State Tag) :
    testNow cfg false tree s = tree.members.foldl (request cfg false) s := by
  obtain ⟨tag, isGroup, members⟩ := tree
  rw [testNow, Tree.members]
  split
  · exact testMembers_eq members s
  · rfl

theorem testMembers_eq (trees : List (Tree Tag)) (s : State Tag) :
    testMembers cfg trees s = (membersOf trees).foldl (request cfg false) s := by
  cases trees with
  | nil => rfl
  | cons member rest => rw [testMembers, membersOf, foldl_append, testNow_eq, testMembers_eq]

end

mutual

theorem testParents_eq (first : Bool) (tree : Tree Tag) (s : State Tag) :
    testParents cfg first tree s = (tree.dependents first).foldl (request cfg true) s := by
  obtain ⟨tag, isGroup, dependents⟩ := tree
  rw [testParents, Tree.dependents, foldl_append, testDependents_eq]
  split <;> rfl

theorem testDependents_eq (trees : List (Tree Tag)) (s : State Tag) :
    testDependents cfg trees s = (dependentsOf trees).foldl (request cfg true) s := by
  cases trees with
  | nil => rfl
  | cons tree rest =>
      rw [testDependents, dependentsOf, foldl_append, testParents_eq, testDependents_eq]

end

/-- The tasks for an outbound in the queues. -/
def tasksFor (tag : Tag) (s : State Tag) : Nat :=
  (s.priorityQueue ++ s.normalQueue).countP (·.outboundTag = tag)

variable {cfg} {s : State Tag} {tag : Tag}

theorem request_keeps (priority : Bool) (other : Tag) :
    (request cfg priority s other).cycleSeq = s.cycleSeq ∧
      (request cfg priority s other).normalQueue.length ≤
        s.normalQueue.length + (if priority then 0 else 1) ∧
      (other ≠ tag → tasksFor tag (request cfg priority s other) = tasksFor tag s ∧
        (request cfg priority s other).outbounds tag = s.outbounds tag) := by
  rw [request]
  obtain ⟨_, refused⟩ | ⟨o, _, _, ⟨_, full⟩ | ⟨_, queued⟩⟩ :=
    enqueueTask_cases cfg ⟨other, s.cycleSeq, priority, none⟩ s
  · rw [refused]
    exact ⟨rfl, Nat.le_add_right _ _, fun _ => ⟨rfl, rfl⟩⟩
  · rw [full]
    exact ⟨rfl, Nat.le_add_right _ _, fun differ => ⟨rfl, if_neg differ.symm⟩⟩
  · rw [queued]
    cases priority <;>
      simp +contextual [State.push, tasksFor, State.setOutbound, eq_comm]

theorem request_own {o : OutboundState} (registered : s.outbounds tag = some o)
    (room : s.normalQueue.length < cfg.normalCapacity) :
    tasksFor tag (request cfg false s tag) =
      tasksFor tag s + (if o.enqueuedCycle = s.cycleSeq then 0 else 1) ∧
      ∃ o', (request cfg false s tag).outbounds tag = some o' ∧ o'.enqueuedCycle = s.cycleSeq := by
  by_cases marked : o.enqueuedCycle = s.cycleSeq
  · have refused : request cfg false s tag = s := by simp [request, enqueueTask, registered, marked]
    rw [refused, if_pos marked]
    exact ⟨rfl, o, registered, marked⟩
  · have queued : request cfg false s tag =
      (s.setOutbound tag { o with enqueuedCycle := s.cycleSeq, queued := true }).push
        ⟨tag, s.cycleSeq, false, none⟩ := by
      simp [request, enqueueTask, registered, marked, State.setOutbound, room, State.push]
    rw [queued, if_neg marked]
    refine ⟨?_, _, if_pos rfl, rfl⟩
    simp [tasksFor, State.push, State.setOutbound, Nat.add_assoc]

theorem dependents_keep {dependents : List Tag} (apart : tag ∉ dependents) :
    tasksFor tag (dependents.foldl (request cfg true) s) = tasksFor tag s ∧
      (dependents.foldl (request cfg true) s).outbounds tag = s.outbounds tag ∧
      (dependents.foldl (request cfg true) s).cycleSeq = s.cycleSeq ∧
      (dependents.foldl (request cfg true) s).normalQueue.length ≤ s.normalQueue.length := by
  induction dependents generalizing s with
  | nil => exact ⟨rfl, rfl, rfl, .refl⟩
  | cons other rest ih =>
    obtain ⟨here, apart⟩ := not_or.mp (mt mem_cons.mpr apart)
    obtain ⟨cycle, length, kept⟩ := @request_keeps _ _ cfg s tag true other
    obtain ⟨tasks, outbound⟩ := kept (Ne.symm here)
    obtain ⟨tasks', outbound', cycle', length'⟩ := @ih (request cfg true s other) apart
    exact ⟨tasks'.trans tasks, outbound'.trans outbound, cycle'.trans cycle,
      Nat.le_trans length' length⟩

theorem members_tasks {members : List Tag}
    (room : s.normalQueue.length + members.length ≤ cfg.normalCapacity)
    {o : OutboundState} (registered : s.outbounds tag = some o) :
    tasksFor tag (members.foldl (request cfg false) s) =
      tasksFor tag s + (if tag ∈ members ∧ o.enqueuedCycle ≠ s.cycleSeq then 1 else 0) := by
  induction members generalizing s o with
  | nil => simp
  | cons other rest ih =>
    rw [length_cons] at room
    obtain ⟨cycle, length, kept⟩ := @request_keeps _ _ cfg s tag false other
    have room' : (request cfg false s other).normalQueue.length + rest.length ≤
      cfg.normalCapacity := by
      simp only [Bool.false_eq_true, if_false] at length
      omega
    by_cases own : other = tag
    · subst own
      obtain ⟨tasks, o', registered', marked⟩ :=
        request_own registered (by omega : s.normalQueue.length < cfg.normalCapacity)
      rw [foldl_cons, ih room' registered', tasks]
      simp [marked, cycle]
    · obtain ⟨tasks, outbound⟩ := kept own
      rw [foldl_cons, ih room' (outbound.trans registered), tasks, cycle]
      simp [Ne.symm own]

/-- `TestNow` on a group with nothing queued puts one task for each of its outbounds into the queues
exactly when none of them is marked with the number of the last cycle. -/
theorem testNow_tasks_iff (cfg : Config) (s : State Tag) {g : Tag}
    {members dependents : List (Tree Tag)}
    (registered : ∀ m ∈ membersOf members, ∃ o, s.outbounds m = some o)
    (free : ∀ m ∈ membersOf members, tasksFor m s = 0)
    (apart : ∀ m ∈ membersOf members, m ∉ dependentsOf dependents)
    (room : s.normalQueue.length + (membersOf members).length ≤ cfg.normalCapacity) :
    (∀ m ∈ membersOf members,
      tasksFor m (TestNow cfg (.node g true members) (.node g true dependents) s) = 1) ↔
      ∀ m ∈ membersOf members, ∀ o, s.outbounds m = some o → o.enqueuedCycle ≠ s.cycleSeq := by
  refine forall₂_congr fun m member => ?_
  obtain ⟨o, here⟩ := registered m member
  rw [TestNow, testParents_eq, testNow, if_pos rfl, testMembers_eq]
  obtain ⟨tasks, outbound, cycle, length⟩ :=
    @dependents_keep _ _ cfg s m (dependentsOf dependents) (apart m member)
  rw [show (Tree.node g true dependents).dependents true = dependentsOf dependents from rfl,
    members_tasks (by omega) (outbound.trans here), tasks, free m member, cycle]
  simp [member, here]

end

def nested : List (Tree Nat) := [.node 1 false [], .node 2 true [.node 1 false []]]

/-- One cycle has begun, and found nothing to test. -/
theorem testNow_after_cycle :
    ∃ s, step {} (initial fun _ => true) (.startCycle []) = some s ∧
      tasksFor 1 (TestNow {} (.node 0 true nested) (.node 0 true []) s) = 1 := by
  refine ⟨_, rfl, (testNow_tasks_iff {} _ ?_ ?_ ?_ ?_).mpr ?_ 1 (by decide)⟩
  · exact fun m _ => ⟨{}, rfl⟩
  · exact fun m _ => rfl
  · exact fun m _ => not_mem_nil
  · decide
  · intro m _ o here
    cases here
    decide

/-- Before the first cycle nothing is put into the queues. -/
theorem testNow_before_cycles :
    tasksFor 1 (TestNow {} (.node 0 true nested) (.node 0 true []) (initial fun _ => true)) =
      0 := by
  decide

end AiboosterEngine.Monitoring
