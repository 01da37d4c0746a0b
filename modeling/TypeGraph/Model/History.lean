import TypeGraph.Model

/-!
# Histories of a model

What a model answers depends on its store and its configuration, and might depend on what it was
asked before. To speak about that, requests are values here, and a history is the list of requests
that a new model was asked, successful and failed ones alike.

## Main definitions

* `Request` — what can be asked of a model, and `TypeModel.ask`
* `TypeModel.askEach` — asks several requests, one after the other
* `TypeModel.Reachable` — a model that some history leads to

## Main results

* `TypeModel.sameImage_ask` — a request changes neither store nor configuration
* `TypeModel.reachable_iff_askEach` — the reachable models are those that lists of requests lead to
-/

namespace TypeGraph

/-- What can be asked of a model. -/
inductive Request where
  | definition (index : DefinitionIndex)
  | usage (usage : TypeUsage)
  | usageIndex (index : UsageIndex)
  | link (link : TypeLink)
  | member (id : TypeId) (site : MemberSite)
  deriving DecidableEq, Repr

namespace TypeModel

/-- A model of an image of which nothing is resolved yet. -/
def new (store : Store) (config : Config) : TypeModel := { store, config }

/-- Asks a request. There is no answer where a member is asked for that does not exist. -/
def ask : Request → TypeModel → Except Fault (Option TypeId) × TypeModel
  | .definition index, model =>
    let (answer, model) := model.resolveDefinition index
    (answer.map some, model)
  | .usage usage, model =>
    let (answer, model) := model.resolveUsage usage
    (answer.map some, model)
  | .usageIndex index, model =>
    let (answer, model) := model.resolveUsageIndex index
    (answer.map some, model)
  | .link link, model =>
    let (answer, _, model) := model.resolveLink link
    (answer.map some, model)
  | .member id site, model => model.resolveMember id site

/-- Asks several requests, one after the other, whether they succeed or fail. -/
def askEach : List Request → TypeModel → List (Except Fault (Option TypeId)) × TypeModel
  | [], model => ([], model)
  | request :: rest, model =>
    let (answer, model) := model.ask request
    let (answers, model) := model.askEach rest
    (answer :: answers, model)

/-- Asking two lists of requests is asking one after the other. -/
theorem askEach_append (requests rest : List Request) (model : TypeModel) :
    (model.askEach (requests ++ rest)).2 = ((model.askEach requests).2.askEach rest).2 := by
  induction requests generalizing model with
  | nil => rfl
  | cons request requests ih => simpa [askEach] using ih (model.ask request).2

/-! ### What requests leave alone -/

/-- Two models are of one image if they have the same store and the same configuration. -/
def SameImage (model model' : TypeModel) : Prop :=
  model'.store = model.store ∧ model'.config = model.config

theorem SameImage.rfl {model : TypeModel} : SameImage model model := ⟨Eq.refl _, Eq.refl _⟩

theorem SameImage.trans {model model' model'' : TypeModel} (h : SameImage model model')
    (h' : SameImage model' model'') : SameImage model model'' :=
  ⟨h'.1.trans h.1, h'.2.trans h.2⟩

theorem sameImage_request (step : Resolving TypeId) (model : TypeModel) :
    SameImage model (model.request step).2 := SameImage.rfl

theorem sameImage_resolveDefinition (index : DefinitionIndex) (model : TypeModel) :
    SameImage model (model.resolveDefinition index).2 := by
  unfold resolveDefinition
  split
  · exact SameImage.rfl
  · exact sameImage_request _ _

theorem sameImage_resolveUsage (usage : TypeUsage) (model : TypeModel) :
    SameImage model (model.resolveUsage usage).2 := by
  unfold resolveUsage
  split
  · exact SameImage.rfl
  · exact sameImage_resolveDefinition _ _
  · exact sameImage_resolveDefinition _ _
  · exact sameImage_request _ _

theorem sameImage_resolveUsageIndex (index : UsageIndex) (model : TypeModel) :
    SameImage model (model.resolveUsageIndex index).2 := by
  unfold resolveUsageIndex
  split
  · exact SameImage.rfl
  · exact sameImage_resolveUsage _ _

theorem sameImage_resolveLink (link : TypeLink) (model : TypeModel) :
    SameImage model (model.resolveLink link).2.2 := by
  have bound := sameImage_resolveUsageIndex link.usage model
  unfold resolveLink
  split
  · exact SameImage.rfl
  · split <;> simp_all

theorem sameImage_resolveMember (id : TypeId) (site : MemberSite) (model : TypeModel) :
    SameImage model (model.resolveMember id site).2 := by
  unfold resolveMember
  split
  · exact SameImage.rfl
  · exact SameImage.rfl
  · next link _ =>
    have bound := sameImage_resolveLink link model
    split <;> simp_all [SameImage]

/-- A request changes neither the store nor the configuration. -/
theorem sameImage_ask (request : Request) (model : TypeModel) :
    SameImage model (model.ask request).2 := by
  cases request with
  | definition index => exact sameImage_resolveDefinition index model
  | usage usage => exact sameImage_resolveUsage usage model
  | usageIndex index => exact sameImage_resolveUsageIndex index model
  | link link => exact sameImage_resolveLink link model
  | member id site => exact sameImage_resolveMember id site model

/-! ### Reachable models -/

/-- A model is reachable if some history of a new model leads to it. -/
inductive Reachable (store : Store) (config : Config) : TypeModel → Prop where
  | new : Reachable store config (.new store config)
  | ask {model : TypeModel} (before : Reachable store config model) (request : Request) :
      Reachable store config (model.ask request).2

/-- Every reachable model has the store and the configuration that it was set up with. -/
theorem Reachable.sameImage {store : Store} {config : Config} {model : TypeModel}
    (h : Reachable store config model) : SameImage (.new store config) model := by
  induction h with
  | new => exact SameImage.rfl
  | ask _ request before => exact before.trans (sameImage_ask request _)

theorem reachable_askEach {store : Store} {config : Config} {model : TypeModel}
    (h : Reachable store config model) (requests : List Request) :
    Reachable store config (model.askEach requests).2 := by
  induction requests generalizing model with
  | nil => exact h
  | cons request rest ih => exact ih (h.ask request)

/-- A model is reachable exactly if it is what a list of requests leaves of a new model. -/
theorem reachable_iff_askEach {store : Store} {config : Config} {model : TypeModel} :
    Reachable store config model ↔
      ∃ requests, ((TypeModel.new store config).askEach requests).2 = model := by
  constructor
  · intro h
    induction h with
    | new => exact ⟨[], rfl⟩
    | ask _ request before =>
      obtain ⟨requests, rfl⟩ := before
      exact ⟨requests ++ [request], askEach_append requests [request] _⟩
  · rintro ⟨requests, rfl⟩
    exact reachable_askEach .new requests

end TypeModel

end TypeGraph
