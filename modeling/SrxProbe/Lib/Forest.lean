import Mathlib.Data.List.Infix

/-!
# Forests and their traversal

Ordered forests of labelled nodes and leaves, and the visits of a traversal: a node is
entered, what is in it is visited, and it is left. A machine that reads the visits does not
see the forest; the rule of this module gives it back the path to each visit, so that what
holds on every path is proved one visit at a time.
-/

namespace SrxProbe.Lib

universe u v w

/-- A forest, by its first tree. -/
inductive Forest (α : Type u) (β : Type v)
  | empty
  | leaf (b : β) (rest : Forest α β)
  | node (a : α) (content rest : Forest α β)
  deriving DecidableEq, Repr

/-- One visit of a traversal. -/
inductive Visit (α : Type u) (β : Type v)
  | enter (a : α)
  | leaf (b : β)
  | leave (a : α)
  deriving DecidableEq, Repr

variable {α : Type u} {β : Type v} {σ : Type w}

/-- The nodes that are open after a visit, the innermost first. -/
def Visit.next (path : List α) : Visit α β → List α
  | .enter a => a :: path
  | .leaf _ => path
  | .leave _ => path.tail

namespace Forest

/-- The visits of a traversal. -/
def visits : Forest α β → List (Visit α β)
  | empty => []
  | leaf b rest => .leaf b :: rest.visits
  | node a content rest => .enter a :: (content.visits ++ .leave a :: rest.visits)

/-- The visits, each with the path to it: the labels of the nodes it is in, the innermost
first. -/
def placed (path : List α) : Forest α β → List (List α × Visit α β)
  | empty => []
  | leaf b rest => (path, .leaf b) :: rest.placed path
  | node a content rest =>
      (path, .enter a) :: (content.placed (a :: path) ++ (path, .leave a) :: rest.placed path)

/-- The nodes, each with the path to it. -/
def nodes (path : List α) : Forest α β → List (List α × α)
  | empty => []
  | leaf _ rest => rest.nodes path
  | node a content rest => (path, a) :: (content.nodes (a :: path) ++ rest.nodes path)

/-- The forest without the nodes that `hide` picks, and what is in them. -/
def prune (hide : α → Bool) : Forest α β → Forest α β
  | empty => empty
  | leaf b rest => leaf b (rest.prune hide)
  | node a content rest =>
      if hide a then rest.prune hide else node a (content.prune hide) (rest.prune hide)

theorem map_snd_placed (path : List α) (f : Forest α β) :
    (f.placed path).map Prod.snd = f.visits := by
  induction f generalizing path with
  | empty => rfl
  | leaf b rest ih => simp [placed, visits, ih]
  | node a content rest ihContent ihRest => simp [placed, visits, ihContent, ihRest]

/-- A forest leaves open what was open before it. -/
theorem foldl_next_visits (path : List α) (f : Forest α β) :
    f.visits.foldl Visit.next path = path := by
  induction f generalizing path with
  | empty => rfl
  | leaf b rest ih => exact ih path
  | node a content rest ihContent ihRest =>
      rw [visits, List.foldl_cons, List.foldl_append, List.foldl_cons, Visit.next, ihContent]
      exact ihRest path

/-- **The rule of traversals.** An invariant on the path, the visits that are done and the
state of a machine, which one visit keeps on any path, is kept by every part of a traversal.
Of a node and the path to it, `ok` may be used. -/
theorem invariant_placed (step : σ → Visit α β → σ) {ok : List α → α → Prop}
    (Inv : List α → List (List α × Visit α β) → σ → Prop)
    (hleaf : ∀ {path done s} b, Inv path done s →
      Inv path (done ++ [(path, .leaf b)]) (step s (.leaf b)))
    (henter : ∀ {path done s} a, ok path a → Inv path done s →
      Inv (a :: path) (done ++ [(path, .enter a)]) (step s (.enter a)))
    (hleave : ∀ {path done s} a, ok path a → Inv (a :: path) done s →
      Inv path (done ++ [(path, .leave a)]) (step s (.leave a)))
    (f : Forest α β) {path : List α} {done part : List (List α × Visit α β)} {s : σ}
    (hok : ∀ n ∈ f.nodes path, ok n.1 n.2) (h : Inv path done s)
    (hpart : part <+: f.placed path) :
    Inv ((part.map Prod.snd).foldl Visit.next path) (done ++ part)
      ((part.map Prod.snd).foldl step s) := by
  induction f generalizing path done part s with
  | empty =>
      rw [List.prefix_nil.mp hpart]
      simpa using h
  | leaf b rest ih =>
      rcases List.prefix_cons_iff.mp hpart with rfl | ⟨tail, rfl, htail⟩
      · simpa using h
      · simpa [Visit.next] using ih hok (hleaf b h) htail
  | node a content rest ihContent ihRest =>
      simp only [nodes, List.forall_mem_cons, List.forall_mem_append] at hok
      obtain ⟨ha, hcontent, hrest⟩ := hok
      rcases List.prefix_cons_iff.mp hpart with rfl | ⟨tail, rfl, htail⟩
      · simpa using h
      have hentered := henter a ha h
      -- the part ends in the content, or it has all of it
      rcases List.prefix_or_prefix_of_prefix htail (List.prefix_append _ _) with hin | ⟨more, rfl⟩
      · simpa [Visit.next] using ihContent hcontent hentered hin
      have hmore := (List.prefix_append_right_inj _).mp htail
      have hfilled := ihContent hcontent hentered (List.prefix_rfl)
      simp only [map_snd_placed, foldl_next_visits] at hfilled
      rcases List.prefix_cons_iff.mp hmore with rfl | ⟨last, rfl, hlast⟩
      · simpa [Visit.next, map_snd_placed, foldl_next_visits] using hfilled
      · simpa [Visit.next, map_snd_placed, foldl_next_visits] using
          ihRest hrest (hleave a ha hfilled) hlast

/-- A machine that is where it was after each tree that `hide` picks does not need them. -/
theorem foldl_prune {step : σ → Visit α β → σ} {hide : α → Bool}
    (h : ∀ s a (content : Forest α β), hide a = true →
      step (content.visits.foldl step (step s (.enter a))) (.leave a) = s)
    (f : Forest α β) (s : σ) :
    (f.prune hide).visits.foldl step s = f.visits.foldl step s := by
  induction f generalizing s with
  | empty => rfl
  | leaf b rest ih => exact ih _
  | node a content rest ihContent ihRest =>
      rw [prune, visits, List.foldl_cons, List.foldl_append, List.foldl_cons]
      split
      next hhide => rw [h s a content hhide, ihRest]
      next => rw [visits, List.foldl_cons, List.foldl_append, List.foldl_cons, ihContent, ihRest]

end Forest

end SrxProbe.Lib
