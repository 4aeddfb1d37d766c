import DesignSystem.Text.Cut
/-!
# Skeletons of React components
-/

namespace DesignSystem.Skeleton.NativeReact

/-- The skeleton of a function component. -/
def componentText : String :=
  Text.lines [
    "// \x7b\x7b name \x7d\x7d: \x7b\x7b description \x7d\x7d.",
    "// Generated by dsforge. Styles read the --ds-* variables of the active theme.",
    "",
    "\x7b% if react_hooks %\x7d",
    "import \x7b \x7b\x7b react_hooks | join(\", \") \x7d\x7d \x7d from 'react';",
    "\x7b% endif %\x7d",
    "\x7b% if slot %\x7d",
    "import type \x7b ReactNode \x7d from 'react';",
    "\x7b% endif %\x7d",
    "import styles from './\x7b\x7b pascal \x7d\x7d.module.css';",
    "",
    "export interface \x7b\x7b pascal \x7d\x7dProps \x7b",
    "\x7b% for prop in props %\x7d",
    "  \x7b\x7b prop.name \x7d\x7d?: \x7b\x7b prop.ts_type \x7d\x7d;",
    "\x7b% endfor %\x7d",
    "\x7b% for event in events %\x7d",
    "  \x7b\x7b event.handler \x7d\x7d?: (detail: \x7b\x7b event.detail_type \x7d\x7d) => void;",
    "\x7b% endfor %\x7d",
    "\x7b% if slot %\x7d",
    "  children?: ReactNode;",
    "\x7b% endif %\x7d",
    "  className?: string;",
    "\x7d",
    "",
    "function cx(...names: Array<string | false | null | undefined>): string \x7b",
    "  return names.filter(Boolean).join(' ');",
    "\x7d",
    "",
    "export function \x7b\x7b pascal \x7d\x7d(\x7b",
    "\x7b% for prop in props %\x7d",
    "  \x7b\x7b prop.name \x7d\x7d = \x7b\x7b prop.default \x7d\x7d,",
    "\x7b% endfor %\x7d",
    "\x7b% for event in events %\x7d",
    "  \x7b\x7b event.handler \x7d\x7d,",
    "\x7b% endfor %\x7d",
    "\x7b% if slot %\x7d",
    "  children,",
    "\x7b% endif %\x7d",
    "  className,",
    "\x7d: \x7b\x7b pascal \x7d\x7dProps) \x7b",
    "  \x7b\x7b view_jsx | trim | indent(2) \x7d\x7d",
    "\x7d",
    "",
    "export default \x7b\x7b pascal \x7d\x7d;"]

/-- The skeleton of its style sheet. -/
def moduleText : String :=
  Text.lines [
    "/* \x7b\x7b name \x7d\x7d. Generated by dsforge. */",
    "",
    "\x7b\x7b styles | trim \x7d\x7d"]

/-- The skeleton of the module that exports the component. -/
def indexText : String :=
  Text.lines [
    "export \x7b \x7b\x7b pascal \x7d\x7d, default \x7d from './\x7b\x7b pascal \x7d\x7d';",
    "export type \x7b \x7b\x7b pascal \x7d\x7dProps \x7d from './\x7b\x7b pascal \x7d\x7d';"]

end DesignSystem.Skeleton.NativeReact
