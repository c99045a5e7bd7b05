/-! The rules for writing a diagram, as they are given to a model and to whoever asks for them. -/
namespace ArchSketch.Diagram

def ruleTexts : List String :=
  ["Use the C4-PlantUML macros, never ASCII art. Elements are declared with Person(), " ++
      "Person_Ext(), System(), System_Ext(), SystemDb(), Container(), ContainerDb(), " ++
      "ContainerQueue(), Component() and their _Ext variants; relationships with Rel(), " ++
      "Rel_U(), Rel_D(), Rel_L(), Rel_R() or BiRel(). Do not draw boxes with '+----+' or " ++
      "similar characters.",
    "Every element takes an alias first. The alias is a short identifier (letters, digits, " ++
      "underscores) that Rel() refers to: Person(customer, \"Customer\", \"Buys products\"). " ++
      "Write Person(customer, ...), never Person/customer or Person customer.",
    "Arguments are quoted strings in a fixed order. Person/System: (alias, label, " ++
      "description). Container/Component: (alias, label, technology, description). Rel: (from, " ++
      "to, label, technology?).",
    "Pick one level per diagram. A context diagram shows people and software systems. A " ++
      "container diagram opens one system inside System_Boundary() and shows its deployable " ++
      "units. A component diagram opens one container inside Container_Boundary() and shows " ++
      "its components.",
    "Relationships point from the caller to the dependency and carry a verb label (\"Reads " ++
      "orders from\", \"Publishes events to\"). One Rel() per dependency; no separate response " ++
      "arrows.",
    "External systems are opaque. Mark systems and people the team does not own with the " ++
      "_Ext variants and never put children inside them.",
    "Data stores and queues are explicit. Use ContainerDb() for databases and " ++
      "ContainerQueue() for brokers instead of hiding them in a relationship label.",
    "Names describe roles, not stacks. \"Order Service\" with technology \"Rust, axum\" " ++
      "rather than \"Rust axum service\".",
    "Wrap the diagram in @startuml and @enduml. Includes and layout directives are optional; " ++
      "they are added automatically when missing."]

def rules : String :=
  "\n".intercalate (ruleTexts.zipIdx.map fun rule => s!"{rule.2 + 1}. {rule.1}")

end ArchSketch.Diagram
