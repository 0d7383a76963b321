import DiagramLayout.Grid

/-!
# Kinds of elements

Diagrams, classifiers, features and relationships come in kinds. A kind has a keyword, under which
documents know it, and a name for output, which is the keyword with its words capitalized and run
together. The predicates say what the layout needs to know of a kind.
-/

namespace DiagramLayout

/-- A word with a capital. -/
def capitalized : List Char → List Char
  | [] => []
  | letter :: letters => letter.toUpper :: letters

/-- The name that belongs to a keyword: every word of it capitalized and the underscores left
out. -/
def nameOfKeyword (keyword : String) : String :=
  String.ofList ((keyword.toList.splitOn '_').flatMap capitalized)

/-- The kind of a diagram, which decides what its axes mean. -/
inductive DiagramKind where
  | list
  | box
  | classes
  | component
  | deployment
  | package
  | useCase
  | activity
  | stateMachine
  | sequence
  | communication
  | timing
  | interactionOverview
  | blockDefinition
  | internalBlock
  | parametric
  | requirement
deriving DecidableEq, Repr

namespace DiagramKind

/-- The keyword of a kind. -/
def keyword : DiagramKind → String
  | list => "list"
  | box => "box"
  | classes => "class"
  | component => "component"
  | deployment => "deployment"
  | package => "package"
  | useCase => "use_case"
  | activity => "activity"
  | stateMachine => "state_machine"
  | sequence => "sequence"
  | communication => "communication"
  | timing => "timing"
  | interactionOverview => "interaction_overview"
  | blockDefinition => "block_definition"
  | internalBlock => "internal_block"
  | parametric => "parametric"
  | requirement => "requirement"

/-- The name of a kind. -/
def name (kind : DiagramKind) : String := nameOfKeyword kind.keyword

/-- Every kind, in the order in which messages list them. -/
def all : List DiagramKind :=
  [list, box, classes, component, deployment, package, useCase, activity, stateMachine, sequence,
    communication, timing, interactionOverview, blockDefinition, internalBlock, parametric,
    requirement]

theorem mem_all (kind : DiagramKind) : kind ∈ all := by
  cases kind <;> decide

/-- Sequence and timing diagrams place their relationships along a time axis. -/
def hasTimeAxis : DiagramKind → Bool
  | sequence | timing => true
  | _ => false

/-- The grid on which order keys become locations. -/
def gridKind : DiagramKind → GridKind
  | sequence => .timeY
  | timing => .timeX
  | _ => .xy

theorem hasTimeAxis_eq (kind : DiagramKind) :
    kind.hasTimeAxis = kind.gridKind.timeAxis.isSome := by
  cases kind <;> rfl

end DiagramKind

/-- The kind of a classifier. -/
inductive ClassifierKind where
  | block
  | constraintBlock
  | requirement
  | actor
  | useCase
  | systemBoundary
  | activity
  | action
  | state
  | interaction
  | diagramReference
  | node
  | component
  | part
  | interface
  | package
  | classType
  | object
  | artifact
  | comment
  | image
  | stereotype
  | acceptEvent
  | sendSignal
  | timeEvent
  | initialNode
  | finalNode
  | forkNode
  | joinNode
  | decisionNode
  | historyNode
deriving DecidableEq, Repr

namespace ClassifierKind

/-- The keyword of a kind. -/
def keyword : ClassifierKind → String
  | block => "block"
  | constraintBlock => "constraint_block"
  | requirement => "requirement"
  | actor => "actor"
  | useCase => "use_case"
  | systemBoundary => "system_boundary"
  | activity => "activity"
  | action => "action"
  | state => "state"
  | interaction => "interaction"
  | diagramReference => "diagram_reference"
  | node => "node"
  | component => "component"
  | part => "part"
  | interface => "interface"
  | package => "package"
  | classType => "class"
  | object => "object"
  | artifact => "artifact"
  | comment => "comment"
  | image => "image"
  | stereotype => "stereotype"
  | acceptEvent => "accept_event"
  | sendSignal => "send_signal"
  | timeEvent => "time_event"
  | initialNode => "initial_node"
  | finalNode => "final_node"
  | forkNode => "fork_node"
  | joinNode => "join_node"
  | decisionNode => "decision_node"
  | historyNode => "history_node"

/-- The name of a kind. -/
def name (kind : ClassifierKind) : String := nameOfKeyword kind.keyword

/-- Every kind, in the order in which messages list them. -/
def all : List ClassifierKind :=
  [block, constraintBlock, requirement, actor, useCase, systemBoundary, activity, action, state,
    interaction, diagramReference, node, component, part, interface, package, classType, object,
    artifact, comment, image, stereotype, acceptEvent, sendSignal, timeEvent, initialNode,
    finalNode, forkNode, joinNode, decisionNode, historyNode]

theorem mem_all (kind : ClassifierKind) : kind ∈ all := by
  cases kind <;> decide

/-- Classifiers that describe behavior; their pins sit outside the border. -/
def isBehavioral : ClassifierKind → Bool
  | useCase | activity | action | state | interaction | acceptEvent | sendSignal | timeEvent => true
  | _ => false

/-- Constraint blocks draw their parameters inside the border. -/
def isConstraintBlock : ClassifierKind → Bool
  | constraintBlock => true
  | _ => false

/-- Classifiers that take part in a scenario with a lifeline. -/
def canHaveLifeline : ClassifierKind → Bool
  | comment | image | stereotype | systemBoundary | package | initialNode | finalNode | forkNode
  | joinNode | decisionNode | historyNode => false
  | _ => true

end ClassifierKind

/-- The kind of a feature. A kind that is not known is laid out like a tagged value. -/
inductive FeatureKind where
  | property
  | operation
  | port
  | lifeline
  | providedInterface
  | requiredInterface
  | inPin
  | outPin
  | entryPoint
  | exitPoint
  | taggedValue
  | unknown
deriving DecidableEq, Repr

namespace FeatureKind

/-- The keyword of a kind. -/
def keyword : FeatureKind → String
  | property => "property"
  | operation => "operation"
  | port => "port"
  | lifeline => "lifeline"
  | providedInterface => "provided_interface"
  | requiredInterface => "required_interface"
  | inPin => "in_pin"
  | outPin => "out_pin"
  | entryPoint => "entry_point"
  | exitPoint => "exit_point"
  | taggedValue => "tagged_value"
  | unknown => "unknown"

/-- The name of a kind. -/
def name (kind : FeatureKind) : String := nameOfKeyword kind.keyword

/-- Every kind, in the order in which messages list them. -/
def all : List FeatureKind :=
  [property, operation, port, lifeline, providedInterface, requiredInterface, inPin, outPin,
    entryPoint, exitPoint, taggedValue, unknown]

theorem mem_all (kind : FeatureKind) : kind ∈ all := by
  cases kind <;> decide

/-- Features on the border of their classifier. -/
def isBorderFeature : FeatureKind → Bool
  | port | inPin | outPin | entryPoint | exitPoint => true
  | _ => false

/-- Interfaces, which float outside their classifier. -/
def isInterface : FeatureKind → Bool
  | providedInterface | requiredInterface => true
  | _ => false

/-- Features that are listed in the compartments of their classifier. -/
def isCompartmentEntry : FeatureKind → Bool
  | property | operation | taggedValue | unknown => true
  | _ => false

/-- The compartment that lists a feature: properties, operations, then the rest. -/
def compartment : FeatureKind → Nat
  | property => 0
  | operation => 1
  | _ => 2

end FeatureKind

/-- The kind of a relationship. -/
inductive RelationshipKind where
  | dependency
  | association
  | aggregation
  | composition
  | generalization
  | realization
  | asyncCall
  | syncCall
  | returnCall
  | communicationPath
  | controlFlow
  | objectFlow
  | deployTo
  | manifest
  | inclusion
  | extension
  | refinement
  | trace
  | containment
deriving DecidableEq, Repr

namespace RelationshipKind

/-- The keyword of a kind. -/
def keyword : RelationshipKind → String
  | dependency => "dependency"
  | association => "association"
  | aggregation => "aggregation"
  | composition => "composition"
  | generalization => "generalization"
  | realization => "realization"
  | asyncCall => "async_call"
  | syncCall => "sync_call"
  | returnCall => "return_call"
  | communicationPath => "communication_path"
  | controlFlow => "control_flow"
  | objectFlow => "object_flow"
  | deployTo => "deploy_to"
  | manifest => "manifest"
  | inclusion => "include"
  | extension => "extend"
  | refinement => "refine"
  | trace => "trace"
  | containment => "containment"

/-- The name of a kind. -/
def name (kind : RelationshipKind) : String := nameOfKeyword kind.keyword

/-- Every kind, in the order in which messages list them. -/
def all : List RelationshipKind :=
  [dependency, association, aggregation, composition, generalization, realization, asyncCall,
    syncCall, returnCall, communicationPath, controlFlow, objectFlow, deployTo, manifest,
    inclusion, extension, refinement, trace, containment]

theorem mem_all (kind : RelationshipKind) : kind ∈ all := by
  cases kind <;> decide

/-- The parent encloses the child. -/
def isContainment : RelationshipKind → Bool
  | containment => true
  | _ => false

/-- Messages and flows, which attach to the middle of a lifeline. -/
def isCallOrFlow : RelationshipKind → Bool
  | asyncCall | syncCall | returnCall | controlFlow | objectFlow => true
  | _ => false

end RelationshipKind

end DiagramLayout
