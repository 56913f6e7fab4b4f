import PortfolioShell.Tree.ContentTree

/-! # The built-in content

The tree that is shown when no content file is given: three sections with projects, skills and contacts. -/

namespace PortfolioShell.Sample

def projects : Node :=
  (Node.ofChildren "projects"
    [(Node.ofContent "epicwars-cvc" (.rich (.object
        [("body", .array
          [.object [("type", .string "text"),
              ("value", .string "Card-versus-card battler with deterministic turn resolution.")],
            .object [("href", .string "https://epicwars.example.com"), ("label", .string "Play it"),
              ("type", .string "link")],
            .object [("type", .string "tags"), ("value", .strings ["rust", "wasm", "websockets"])]]),
          ("title", .string "EpicWars CvC")]))
      |>.describedAs "Multiplayer card battler"
      |>.previewedAs "Real-time card game with a deterministic rules engine"
      |>.linkedTo "https://epicwars.example.com"),
    (Node.ofText "pixel-forge"
        "Pixel Forge\n\nA sprite editor with layered undo history and palette import."
      |>.describedAs "Sprite editor"
      |>.previewedAs "Layered pixel-art editor"
      |>.linkedTo "https://github.com/example/pixel-forge"),
    (Node.ofText "terminal-folio" "This very terminal: a virtual filesystem you can cd around in."
      |>.describedAs "Interactive portfolio shell"
      |>.previewedAs "You are looking at it"),
    (Node.ofChildren "archive"
        [Node.ofText "ascii-invaders" "A terminal shoot-'em-up from my first summer of Rust."
          |>.describedAs "Retired side project"]
      |>.describedAs "Older work"
      |>.previewedAs "Retired projects")]
  |>.describedAs "Things I have built"
  |>.previewedAs "3 projects and an archive")

def skills : Node :=
  (Node.ofChildren "skills"
    [(Node.ofText "languages" "Rust, TypeScript, Python, SQL" |>.describedAs "Programming languages"),
      (Node.ofText "frameworks" "Tokio, Axum, React, Next.js" |>.describedAs "Frameworks and libraries"),
      (Node.ofText "tools" "Git, Docker, Nix, PostgreSQL, Grafana"
        |>.describedAs "Tooling and infrastructure")]
  |>.describedAs "What I work with"
  |>.previewedAs "languages, frameworks, tools")

def contact : Node :=
  (Node.ofChildren "contact"
    [(Node.ofText "email" "hello@example.com"
        |>.describedAs "Send me an email"
        |>.linkedTo "mailto:hello@example.com"),
      (Node.ofText "github" "github.com/example"
        |>.describedAs "Code and experiments"
        |>.linkedTo "https://github.com/example"),
      (Node.ofText "linkedin" "linkedin.com/in/example"
        |>.describedAs "Professional profile"
        |>.linkedTo "https://www.linkedin.com/in/example")]
  |>.describedAs "Ways to reach me"
  |>.previewedAs "email, github, linkedin")

def root : Node := Node.ofChildren "" [projects, skills, contact]

theorem root_sound : root.rootFlaw? = none := by decide

def tree : ContentTree := ⟨root, root_sound⟩

end PortfolioShell.Sample
