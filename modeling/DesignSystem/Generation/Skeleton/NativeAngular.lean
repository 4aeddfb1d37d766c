import DesignSystem.Text.Cut
/-!
# Skeletons of Angular components
-/

namespace DesignSystem.Skeleton.NativeAngular

/-- The skeleton of a standalone component. -/
def componentText : String :=
  Text.lines [
    "// \x7b\x7b name \x7d\x7d: \x7b\x7b description \x7d\x7d.",
    "// Generated by dsforge. Styles read the --ds-* variables of the active theme.",
    "",
    "import \x7b Component\x7b% if events %\x7d, EventEmitter\x7b% endif %\x7d, Input\x7b% if events %\x7d, Output\x7b% endif %\x7d \x7d from '@angular/core';",
    "import \x7b CommonModule \x7d from '@angular/common';",
    "",
    "@Component(\x7b",
    "  selector: '\x7b\x7b selector \x7d\x7d',",
    "  standalone: true,",
    "  imports: [CommonModule],",
    "  template: `",
    "    \x7b\x7b view_ng | trim | indent(4) \x7d\x7d",
    "  `,",
    "  styleUrls: ['./\x7b\x7b kebab \x7d\x7d.component.css'],",
    "\x7d)",
    "export class \x7b\x7b pascal \x7d\x7dComponent \x7b",
    "\x7b% for prop in props %\x7d",
    "  @Input() \x7b\x7b prop.name \x7d\x7d: \x7b\x7b prop.ts_type \x7d\x7d = \x7b\x7b prop.default \x7d\x7d;",
    "\x7b% endfor %\x7d",
    "\x7b% for event in events %\x7d",
    "  @Output() readonly \x7b\x7b event.name \x7d\x7d = new EventEmitter<\x7b\x7b event.detail_type \x7d\x7d>();",
    "\x7b% endfor %\x7d",
    "\x7b% if members_ng %\x7d",
    "",
    "  \x7b\x7b members_ng | trim | indent(2) \x7d\x7d",
    "\x7b% endif %\x7d",
    "\x7d"]

/-- The skeleton of its style sheet. -/
def stylesheetText : String :=
  Text.lines [
    ":host \x7b",
    "  display: \x7b\x7b display \x7d\x7d;",
    "\x7d",
    "",
    "\x7b\x7b styles | trim \x7d\x7d"]

end DesignSystem.Skeleton.NativeAngular
