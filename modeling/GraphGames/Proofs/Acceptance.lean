import GraphGames.Proofs.WinningRegion

/-!
# Which games are accepted

Whatever graphs a turn-based game was offered, the one that it has declares what such a game has to. A
solver accepts the game if every vertex belongs to a player, and the problem can be read under the
same condition. Otherwise both name the first vertex that does not. A solver that was made fails only
when it is cancelled.

* `Game.offer`, `Game.after`: the game after it was offered one graph, or several;
* `Game.BoundTo`, `Game.BoundTo.after`: the graph of a game is valid, whatever was offered;
* `Graph.FirstStray`, `Graph.owned_or_stray`: the first vertex that belongs to neither player;
* `Solver.ofGame_of_stray`, `Problem.ofGraph_of_stray`: both name it;
* `Solver.cancelled_of_run`: a run that fails was cancelled;
* `Game.Judged`, `Game.judged_after`: what is said of a game, and that it holds.
-/

namespace GraphGames

/-! ### Games that are offered graphs -/

namespace Game

variable {game : Game} {g : Graph} {gs : List Graph}

/-- The game after a graph was offered. If it is refused, the game stays as it is. -/
def offer (game : Game) (g : Graph) : Game :=
  match (game.define g).value with
  | .ok next => next
  | .error _ => game

/-- The game after several graphs were offered, one after the other. -/
def after (game : Game) (gs : List Graph) : Game := gs.foldl offer game

theorem after_cons (game : Game) (g : Graph) (gs : List Graph) :
    game.after (g :: gs) = (game.offer g).after gs := rfl

theorem offer_of_validate (h : game.kind.validate g = .ok ()) :
    game.offer g = { game with graph? := some g } := by
  unfold offer define
  rw [h]
  rfl

theorem offer_of_error {e : Error} (h : game.kind.validate g = .error e) : game.offer g = game := by
  unfold offer define
  rw [h]
  rfl

/-- The graph of the game, if it has one, has the property `P` and declares what its kind of game asks
for. -/
def BoundTo (P : Graph → Prop) (game : Game) : Prop :=
  ∀ g, game.graph? = some g → P g ∧ game.kind.validate g = .ok ()

/-- An offer changes no more than the graph, and only for one that declares what is asked for. -/
theorem BoundTo.offer {P : Graph → Prop} (h : game.BoundTo P) (hg : P g) :
    (game.offer g).BoundTo P ∧ (game.offer g).kind = game.kind := by
  cases hvalid : game.kind.validate g with
  | ok =>
    rw [offer_of_validate hvalid]
    refine ⟨?_, rfl⟩
    intro g' hg'
    obtain rfl := Option.some.inj hg'
    exact ⟨hg, hvalid⟩
  | error e =>
    rw [offer_of_error hvalid]
    exact ⟨h, rfl⟩

theorem BoundTo.after {P : Graph → Prop} (h : game.BoundTo P) (hgs : ∀ g ∈ gs, P g) :
    (game.after gs).BoundTo P ∧ (game.after gs).kind = game.kind := by
  induction gs generalizing game with
  | nil => exact ⟨h, rfl⟩
  | cons g gs ih =>
    obtain ⟨hg, hrest⟩ := List.forall_mem_cons.mp hgs
    obtain ⟨hbound, hkind⟩ := h.offer hg
    obtain ⟨hlast, hsame⟩ := ih hbound hrest
    exact ⟨hlast, hsame.trans hkind⟩

end Game

/-! ### The turn of every vertex -/

namespace Graph

variable {g : Graph} {v : VertexId} {turn : Int64}

/-- The first vertex that belongs to neither player, with its turn. -/
structure FirstStray (g : Graph) (v : VertexId) (turn : Int64) : Prop where
  contains : g.containsVertex v
  value : g.value (.vertex v) turnProperty = .ok (.int turn)
  stray : turn ≠ 1 ∧ turn ≠ 2
  first : ∀ w, g.containsVertex w → w.index < v.index →
    ∃ player : Player, g.value (.vertex w) turnProperty = .ok (.int player.turn)

/-- A vertex has an integer for its turn, if turns are declared. -/
theorem exists_turn (h : g.propertyType .vertex turnProperty = .ok .int) (hv : g.containsVertex v) :
    ∃ turn, g.value (.vertex v) turnProperty = .ok (.int turn) := by
  obtain ⟨column, hcolumn, htype⟩ := propertyType_eq_ok_iff.mp h
  obtain ⟨turn, hcell⟩ := Value.exists_of_type ((Column.type_getD column v.index).trans htype)
  rw [value_of_contains hcolumn hv, hcell]
  exact ⟨turn, rfl⟩

/-- Every vertex belongs to a player, or there is a first one that does not. -/
theorem owned_or_stray (h : g.propertyType .vertex turnProperty = .ok .int) :
    (∀ v, g.containsVertex v → ∃ player, g.owner? v = some player) ∨
      ∃ v turn, g.FirstStray v turn := by
  by_cases hnone : ∃ i, g.containsVertex ⟨i⟩ ∧ g.owner? ⟨i⟩ = none
  · right
    obtain ⟨hv, howner⟩ := Nat.find_spec hnone
    obtain ⟨turn, hturn⟩ := exists_turn h hv
    rw [owner?_of_value hturn] at howner
    refine ⟨_, turn, hv, hturn, Player.ofTurn?_eq_none_iff.mp howner, ?_⟩
    intro w hw hlt
    have hleast := Nat.find_min hnone hlt
    obtain ⟨player, hplayer⟩ := Option.ne_none_iff_exists'.mp fun hw' => hleast ⟨hw, hw'⟩
    exact ⟨player, owner?_eq_some_iff.mp hplayer⟩
  · left
    intro v hv
    exact Option.ne_none_iff_exists'.mp fun howner => hnone ⟨v.index, hv, howner⟩

/-- All vertices that are listed before the first stray belong to players. -/
theorem FirstStray.exists_append (h : g.FirstStray v turn) :
    ∃ before rest, g.vertices = before ++ v :: rest ∧
      ∀ w ∈ before, ∃ player, g.owner? w = some player := by
  obtain ⟨before, rest, hlist⟩ := List.append_of_mem (mem_vertices.mpr h.contains)
  refine ⟨before, rest, hlist, ?_⟩
  intro w hw
  have hpairwise := g.pairwise_vertices
  rw [hlist, List.pairwise_append] at hpairwise
  have hlt := hpairwise.2.2 w hw v List.mem_cons_self
  have hlive : g.containsVertex w := by
    rw [← mem_vertices, hlist]
    exact List.mem_append_left _ hw
  obtain ⟨player, hvalue⟩ := h.first w hlive hlt
  exact ⟨player, owner?_eq_some_iff.mpr hvalue⟩

end Graph

/-! ### Solvers and problems -/

section

variable {game : Game} {g : Graph} {v : VertexId} {turn : Int64}

namespace Solver

/-- A vertex with an owner is not refused. -/
theorem requireOwner_of_owner {player : Player} (h : g.owner? v = some player) :
    requireOwner g v = .ok () := by
  unfold requireOwner
  rw [Graph.owner?_eq_some_iff.mp h]
  show (if (Player.ofTurn? player.turn).isSome then _ else _) = _
  rw [Player.ofTurn?_turn]
  rfl

theorem requireOwner_of_stray (h : g.FirstStray v turn) :
    requireOwner g v = .error (.invalidGame turnProperty (.badTurn v (.int turn))) := by
  unfold requireOwner
  rw [h.value]
  show (if (Player.ofTurn? turn).isSome then _ else _) = _
  rw [Player.ofTurn?_eq_none_iff.mpr h.stray]
  rfl

/-- For a turn-based game with a valid graph, all that is left is to look at the vertices. -/
theorem ofGame_of_validate (hkind : game.kind = .turnBased) (hgame : game.graph = .ok g)
    (hvalid : GameKind.turnBased.validate g = .ok ()) :
    ofGame game = (g.vertices.forM fun v => requireOwner g v).map fun _ => { graph := g } := by
  unfold ofGame
  rw [hgame]
  show (if game.kind ≠ .turnBased then _ else _) = _
  rw [if_neg (not_not.mpr hkind), hvalid]
  show ((g.vertices.forM fun v => requireOwner g v) >>= fun _ => _) = _
  cases g.vertices.forM fun v => requireOwner g v with
  | error e => rfl
  | ok => rfl

theorem ofGame_of_owned (hkind : game.kind = .turnBased) (hgame : game.graph = .ok g)
    (hvalid : GameKind.turnBased.validate g = .ok ())
    (howned : ∀ v, g.containsVertex v → ∃ player, g.owner? v = some player) :
    ofGame game = .ok { graph := g } := by
  have hnone : (g.vertices.forM fun v => requireOwner g v) = .ok () := by
    rw [forM_eq_ok_iff]
    intro v hv
    obtain ⟨player, howner⟩ := howned v (Graph.mem_vertices.mp hv)
    exact requireOwner_of_owner howner
  rw [ofGame_of_validate hkind hgame hvalid, hnone]
  rfl

/-- The first vertex that belongs to neither player is reported. -/
theorem ofGame_of_stray (hkind : game.kind = .turnBased) (hgame : game.graph = .ok g)
    (hvalid : GameKind.turnBased.validate g = .ok ()) (h : g.FirstStray v turn) :
    ofGame game = .error (.invalidGame turnProperty (.badTurn v (.int turn))) := by
  obtain ⟨before, rest, hlist, hbefore⟩ := h.exists_append
  have hfirst : (g.vertices.forM fun v => requireOwner g v) =
      .error (.invalidGame turnProperty (.badTurn v (.int turn))) := by
    rw [hlist]
    apply forM_eq_error
    · intro w hw
      obtain ⟨player, howner⟩ := hbefore w hw
      exact requireOwner_of_owner howner
    · exact requireOwner_of_stray h
  rw [ofGame_of_validate hkind hgame hvalid, hfirst]
  rfl

/-- A run fails only when it is cancelled, if the problem can be read. -/
theorem cancelled_of_run {solver : Solver} {q : Problem}
    (hq : Problem.ofGraph solver.graph = .ok q) {allowance : Allowance} {e : Error}
    (h : (solver.run allowance).value.1 = .error e) : ∃ cause, e = .cancelled cause := by
  by_cases hfirst : solver.computesFirst
  · obtain ⟨p, start, hprepare⟩ := exists_prepare hq
    cases hcompute : (p.compute .controllable allowance start).value with
    | mk answer last =>
      cases answer with
      | error cause =>
        rw [run_of_error hfirst hprepare hcompute] at h
        exact ⟨cause, (Except.error.inj h).symm⟩
      | ok marking =>
        rw [run_of_compute hfirst hprepare hcompute] at h
        cases h
  · rw [run_of_not_first hfirst] at h
    cases h

end Solver

namespace Problem

/-- A vertex that belongs to neither player cannot be read. -/
theorem role_of_stray {turns isFinal : Column} (haligned : g.Aligned)
    (hturns : g.properties.column? .vertex turnProperty = some turns) (h : g.FirstStray v turn) :
    role turns isFinal v = .error (.invalidTurn v turn) := by
  have hcell : turns.int? v.index = some turn := haligned.int?_of_value h.value hturns
  unfold role
  rw [hcell]
  simp only [Player.ofTurn?_eq_none_iff.mpr h.stray]
  rfl

/-- The first vertex that cannot be read is reported. -/
theorem ofGraph_of_stray (haligned : g.Aligned)
    (hturn : g.propertyType .vertex turnProperty = .ok .int)
    (hfinal : g.propertyType .vertex isFinalProperty = .ok .bool)
    (h : g.FirstStray v turn) : ofGraph g = .error (.invalidTurn v turn) := by
  obtain ⟨before, rest, hlist, hbefore⟩ := h.exists_append
  obtain ⟨turns, hturns, -⟩ := Graph.propertyType_eq_ok_iff.mp hturn
  obtain ⟨isFinal, hfinal, htype⟩ := Graph.propertyType_eq_ok_iff.mp hfinal
  have hroles : (g.vertices.mapM fun v => return (v, ← role turns isFinal v)) =
      .error (.invalidTurn v turn) := by
    rw [hlist]
    apply mapM_eq_error
    · intro w hw
      obtain ⟨player, howner⟩ := hbefore w hw
      obtain ⟨r, hr⟩ := exists_role haligned hturns hfinal htype howner
      exact ⟨(w, r), bind_eq_ok_iff.mpr ⟨r, hr, rfl⟩⟩
    · rw [role_of_stray haligned hturns h]
      rfl
  unfold ofGraph
  rw [Properties.column_eq_ok_iff.mpr hturns, Properties.column_eq_ok_iff.mpr hfinal]
  show (g.vertices.mapM (fun v => return (v, ← role turns isFinal v)) >>= fun _ => _) = _
  rw [hroles]
  rfl

end Problem

end

/-! ### Both agree -/

namespace Game

variable {game : Game} {g : Graph}

/-- What becomes of a turn-based game with graph `g`. -/
structure Judged (game : Game) (g : Graph) : Prop where
  valid : GameKind.turnBased.validate g = .ok ()
  /-- A solver accepts the game iff the problem can be read. -/
  accepted_iff : (∃ solver, Solver.ofGame game = .ok solver) ↔ ∃ p, Problem.ofGraph g = .ok p
  /-- Otherwise both name the first vertex that belongs to neither player, and its turn. -/
  refused : ∀ e, Solver.ofGame game = .error e → ∃ v turn, g.FirstStray v turn ∧
    e = .invalidGame turnProperty (.badTurn v (.int turn)) ∧
    Problem.ofGraph g = .error (.invalidTurn v turn)
  /-- Whatever a solver for the game was called with before, a run fails only when it is cancelled. -/
  runs : ∀ solver, Solver.ofGame game = .ok solver → ∀ later : Solver, later.graph = solver.graph →
    ∀ allowance e, (later.run allowance).value.1 = .error e → ∃ cause, e = .cancelled cause

theorem judged_of_validate (haligned : g.Aligned) (hkind : game.kind = .turnBased)
    (hgame : game.graph = .ok g) (hvalid : GameKind.turnBased.validate g = .ok ()) :
    game.Judged g := by
  obtain ⟨hturn, hfinal⟩ := GameKind.propertyType_of_validate hvalid
  rcases Graph.owned_or_stray hturn with howned | ⟨v, turn, hstray⟩
  · have haccepts := Solver.ofGame_of_owned hkind hgame hvalid howned
    obtain ⟨p, hp⟩ := Problem.exists_ofGraph haligned hturn hfinal howned
    refine ⟨hvalid, iff_of_true ⟨_, haccepts⟩ ⟨p, hp⟩, ?_, ?_⟩
    · intro e he
      rw [haccepts] at he
      cases he
    · intro solver hsolver later hlater allowance e he
      obtain rfl : _ = solver := Except.ok.inj (haccepts.symm.trans hsolver)
      have hread : Problem.ofGraph later.graph = .ok p := by
        rw [hlater]
        exact hp
      exact Solver.cancelled_of_run hread he
  · have hrefused := Solver.ofGame_of_stray hkind hgame hvalid hstray
    have hunreadable := Problem.ofGraph_of_stray haligned hturn hfinal hstray
    refine ⟨hvalid, ?_, ?_, ?_⟩
    · rw [hrefused, hunreadable]
      simp
    · intro e he
      rw [hrefused] at he
      exact ⟨v, turn, hstray, (Except.error.inj he).symm, hunreadable⟩
    · intro solver hsolver
      rw [hrefused] at hsolver
      cases hsolver

/-- **A solver accepts the games whose problem can be read.** A turn-based game that was offered any
graphs that come about, some of which it may have refused, has a graph that declares what is asked for
once it has one. A solver accepts it iff the problem can be read from the graph, and otherwise both
name the same vertex. A solver that was made fails only when it is cancelled. -/
theorem judged_after {gs : List Graph} {g : Graph} (hgs : ∀ g ∈ gs, g.Reachable)
    (hgame : (after { kind := .turnBased } gs).graph = .ok g) :
    (after { kind := .turnBased } gs).Judged g := by
  have hnew : BoundTo Graph.Reachable { kind := .turnBased } := by
    intro g hg
    cases hg
  obtain ⟨hbound, hkind⟩ := hnew.after hgs
  have hsome : (after { kind := .turnBased } gs).graph? = some g := by
    unfold graph at hgame
    split at hgame
    · next g' hg' =>
      rw [hg', Except.ok.inj hgame]
    · cases hgame
  obtain ⟨hreachable, hvalid⟩ := hbound g hsome
  rw [hkind] at hvalid
  exact judged_of_validate hreachable.aligned hkind hgame hvalid

end Game

/-- The relay with vertices `1` and `3` that belong to neither player. -/
def Graph.strayed : Graph :=
  relay.after [.setValue 0 (.vertex ⟨3⟩) turnProperty (.int 0),
    .setValue 0 (.vertex ⟨1⟩) turnProperty (.int 5)]

theorem Graph.reachable_strayed : strayed.Reachable := reachable_relay.after _

/-- A game that refused a graph before, and one that was defined again by a graph with strays. -/
theorem Game.exists_judged :
    (after { kind := .turnBased } [Graph.empty, Graph.relay]).Judged Graph.relay ∧
    ∃ v turn, Graph.strayed.FirstStray v turn ∧
      Solver.ofGame (after { kind := .turnBased } [Graph.relay, Graph.strayed]) =
        .error (.invalidGame turnProperty (.badTurn v (.int turn))) ∧
      Problem.ofGraph Graph.strayed = .error (.invalidTurn v turn) := by
  obtain ⟨⟨⟩, hrelay⟩ : ∃ u, GameKind.turnBased.validate Graph.relay = .ok u :=
    exists_ok_of_isSome (by decide +kernel)
  obtain ⟨⟨⟩, hstrayed⟩ : ∃ u, GameKind.turnBased.validate Graph.strayed = .ok u :=
    exists_ok_of_isSome (by decide +kernel)
  have hfirst : offer { kind := .turnBased } Graph.relay =
      { kind := .turnBased, graph? := some Graph.relay } :=
    offer_of_validate hrelay
  constructor
  · have hrefused : offer { kind := .turnBased } Graph.empty = { kind := .turnBased } := rfl
    apply judged_after
    · simp [Graph.reachable_relay, Graph.Reachable.empty]
    · rw [after_cons, hrefused, after_cons, hfirst]
      rfl
  · have hsecond : offer { kind := .turnBased, graph? := some Graph.relay } Graph.strayed =
        { kind := .turnBased, graph? := some Graph.strayed } :=
      offer_of_validate hstrayed
    have hgame : (after { kind := .turnBased } [Graph.relay, Graph.strayed]).graph =
        .ok Graph.strayed := by
      rw [after_cons, hfirst, after_cons, hsecond]
      rfl
    have hjudged := judged_after
      (by simp [Graph.reachable_relay, Graph.reachable_strayed]) hgame
    have hunreadable : (Problem.ofGraph Graph.strayed).toOption.isNone := by decide +kernel
    cases hsolver : Solver.ofGame (after { kind := .turnBased } [Graph.relay, Graph.strayed]) with
    | ok solver =>
      obtain ⟨p, hp⟩ := hjudged.accepted_iff.mp ⟨solver, hsolver⟩
      rw [hp] at hunreadable
      cases hunreadable
    | error e =>
      obtain ⟨v, turn, hstray, rfl, hproblem⟩ := hjudged.refused e hsolver
      exact ⟨v, turn, hstray, rfl, hproblem⟩

end GraphGames
